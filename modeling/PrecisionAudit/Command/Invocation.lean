import PrecisionAudit.Command.Words
import PrecisionAudit.Decimal.Read
import PrecisionAudit.Precision

/-!
# Commands

The commands with their flags and arguments.

* `Command`: what is to be done.
* `Invocation.read`: the command that the words of a command line ask for.
-/

namespace PrecisionAudit

inductive Command
  /-- Shows the nearest numbers of narrow formats. -/
  | convert (value : Single) (formats : List Precision) (rounding : RoundingMode) (random : Option String)
  /-- Describes a stored narrow number. -/
  | decode (word : String) (precision : Precision)
  /-- Counts the steps between two numbers. -/
  | ulp (a b : Double) (precision : Precision)
  /-- Evaluates a case file. -/
  | check (path : String) (json : Bool)
  /-- Shows the limits of the narrow formats. -/
  | info
  deriving DecidableEq

/-- A command and the configuration under which it runs. -/
structure Invocation where
  command : Command
  /-- The path of the configuration, if one is given. -/
  config : Option String
  deriving DecidableEq

namespace Invocation

/-! ## Grammars -/

/-- The narrow precisions. -/
def narrow : List Precision := [.half, .bfloat, .tfloat]

/-- A narrow precision by its exact name. -/
def narrow? (text : String) : Option Precision := narrow.find? (·.name == text)

/-- The narrow precisions that a name stands for. -/
def formats? (text : String) : Option (List Precision) :=
  if text = "all" then some narrow else (narrow? text).map ([·])

/-- A path must not be empty. -/
def isPath (text : String) : Bool := !text.isEmpty

/-- The flags that are known everywhere. -/
def commonFlags : List Flag := [.help, ⟨"verbose", some 'v', none⟩, ⟨"config", none, some isPath⟩]

def mainGrammar : Grammar where
  flags := .version :: commonFlags
  operands := []
  commands := ["convert", "decode", "ulp", "check", "info", "help"]
  required := []

def convertGrammar : Grammar where
  flags := [⟨"format", some 'f', some fun s => (formats? s).isSome⟩,
    ⟨"rounding", some 'r', some fun s => (RoundingMode.parse? s).isSome⟩,
    ⟨"random", none, some fun _ => true⟩] ++ commonFlags
  operands := [⟨true, fun s => (Scalar.parse? .single s).isSome⟩]
  commands := []
  required := []

def decodeGrammar : Grammar where
  flags := ⟨"format", some 'f', some fun s => (narrow? s).isSome⟩ :: commonFlags
  operands := [⟨false, fun _ => true⟩]
  commands := []
  required := ["format"]

def ulpGrammar : Grammar where
  flags := ⟨"precision", some 'p', some fun s => (Precision.parse? s).isSome⟩ :: commonFlags
  operands := List.replicate 2 ⟨true, fun s => (Scalar.parse? .double s).isSome⟩
  commands := []
  required := []

def checkGrammar : Grammar where
  flags := ⟨"json", none, none⟩ :: commonFlags
  operands := [⟨false, isPath⟩]
  commands := []
  required := []

def infoGrammar : Grammar where
  flags := commonFlags
  operands := []
  commands := []
  required := []

/-! ## Commands from what has been read -/

/-- The first of two optional values. -/
def orUsage {α : Type} : Option α → Except Stop α
  | some a => .ok a
  | none => .error .usage

def convert (r : Reading) : Except Stop Command := do
  let value ← orUsage (r.operands[0]?.bind (Scalar.parse? .single))
  let formats ← orUsage (formats? ((r.flags.get? "format").getD "all"))
  let rounding ← orUsage (RoundingMode.parse? ((r.flags.get? "rounding").getD "rne"))
  return .convert value formats rounding (r.flags.get? "random")

def decode (r : Reading) : Except Stop Command := do
  let word ← orUsage r.operands[0]?
  return .decode word (← orUsage ((r.flags.get? "format").bind narrow?))

def ulp (r : Reading) : Except Stop Command := do
  let a ← orUsage (r.operands[0]?.bind (Scalar.parse? .double))
  let b ← orUsage (r.operands[1]?.bind (Scalar.parse? .double))
  return .ulp a b (← orUsage (Precision.parse? ((r.flags.get? "precision").getD "float")))

def check (r : Reading) : Except Stop Command := do
  return .check (← orUsage r.operands[0]?) (r.flags.get? "json").isSome

/-- Help on a command can be asked for, but not on more than one. -/
def helpOn : List String → Stop
  | [] => .help
  | [word] => if mainGrammar.commands.contains word then .help else .usage
  | _ => .usage

/-- The command of a name with the words after it, and what was read from these words. -/
def readCommand (name : String) (words : List String) : Except Stop (Command × Reading) := do
  let read := fun (g : Grammar) (build : Reading → Except Stop Command) => do
    let r ← g.finish words
    return (← build r, r)
  match name with
  | "convert" => read convertGrammar convert
  | "decode" => read decodeGrammar decode
  | "ulp" => read ulpGrammar ulp
  | "check" => read checkGrammar check
  | "info" => read infoGrammar fun _ => .ok .info
  | _ => throw (helpOn words)

/-- The command that the words of a command line ask for. A configuration that is given after the command takes
precedence over one that is given before it. -/
def read (words : List String) : Except Stop Invocation := do
  let (before, command) ← mainGrammar.scan .start words
  let (name, rest) ← orUsage command
  let (command, after) ← readCommand name rest
  let before ← before.settle
  return ⟨command, (after.flags.get? "config").or (before.flags.get? "config")⟩

end Invocation

end PrecisionAudit
