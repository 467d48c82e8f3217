import PrecisionAudit.Command.Invocation
import PrecisionAudit.Files
import PrecisionAudit.Json.Printer
import PrecisionAudit.Limits

/-!
# Responses to commands

A command prints text and ends with an exit code: 0 if all is well, 1 after a failure, 2 if the words of the command
line make no sense.

* `Response`: what is printed, and the exit code.
* `Command.run`: the response to a command.
* `respondBy`: the response to the words of a command line, for any way to read them; `respond` reads them with
  `Invocation.read`.
-/

namespace PrecisionAudit

-- a power is that of the core library, whatever other instances are in scope
attribute [local instance (2000)] instPowNat

structure Response where
  exitCode : Nat
  output : String
  /-- What is said about a failure apart from the output. -/
  complaint : Option String
  deriving DecidableEq, Repr

/-- The version of the program. -/
def programVersion : String := "0.12.0"

/-- Lines of text. -/
def unlines (lines : List String) : String := String.join (lines.map (· ++ "\n"))

/-- The lines of a text. -/
def textLines (text : String) : List String :=
  match (text.splitOn "\n").reverse with
  | "" :: rest => rest.reverse
  | lines => lines.reverse

namespace Command

/-- A word in hexadecimal. -/
def readHex (text : String) : Except AuditError Nat :=
  match Hex.readWord text with
  | .ok n => .ok n
  | .error fault => .error (.invalidValue text fault.message)

/-! ## Conversion -/

/-- The line on a narrow number. -/
def encodingLine (p : Precision) (x : p.Value) : String :=
  padEnd 7 ' ' p.name ++ " " ++ Hex.format ⟨false, true, .start, 12⟩ x.toNat ++ "  " ++ x.widen.decimalText

/-- The lines on the nearest narrow numbers. -/
def convertLines (value : Single) (formats : List Precision) (rounding : RoundingMode) (random : Option String) :
    Except AuditError (List String) := do
  match random with
  | none => return formats.map fun p => encodingLine p (.narrow p.format value rounding)
  | some random =>
    if formats ≠ [.half] then
      throw (.invalidValue random "stochastic rounding is only available for --format half")
    let dither := Scalar.ofNat .single (← readHex random)
    return [encodingLine .half (Half.ofSingleStochastic value dither)]

/-! ## Description -/

/-- The lines on a stored narrow number. -/
def descriptionLines (p : Precision) (x : p.Value) : List String :=
  [p.name ++ ": " ++ x.widen.decimalText,
    "  nan:      " ++ toString x.isNaN,
    "  infinite: " ++ toString x.isInfinite,
    "  denormal: " ++ toString x.isDenormal,
    "  zero:     " ++ toString x.isZero,
    "  negative: " ++ toString x.isNegative]

/-- The lines on a written word, which must fit the format. -/
def decodeLines (word : String) (p : Precision) : Except AuditError (List String) := do
  let n ← readHex word
  if 2 ^ p.format.storageWidth ≤ n then
    throw (.invalidValue word "does not fit the storage width")
  return descriptionLines p (.ofNat p.format n)

/-! ## Distance -/

/-- The line on the steps between two numbers. -/
def distanceLine (a b : Double) (p : Precision) : String :=
  let (x, y) := (p.ofDouble a, p.ofDouble b)
  let steps := match x.distance? y with
    | some steps => toString steps ++ " ULP"
    | none => "n/a, NaN operand"
  p.text x ++ " vs " ++ p.text y ++ ": " ++ steps ++ " (" ++ p.name ++ ")"

/-! ## Reports -/

/-- The lines on a case. -/
def outcomeLines (outcome : CaseOutcome) : List String :=
  let verdict := if outcome.passed then "PASS" else "FAIL"
  let details := match outcome.description with
    | some text => (textLines text).map ("    " ++ ·)
    | none => []
  (verdict ++ " " ++ outcome.name ++ " (" ++ outcome.precision.name ++ ")") :: details

/-- A report as text. -/
def reportText (report : Report) : String :=
  let count := toString report.passed ++ " passed, " ++ toString report.failed ++ " failed"
  unlines (report.outcomes.flatMap outcomeLines ++ ["", count])

/-! ## Limits -/

/-- The lines on the limits of a narrow format. -/
def limitLines (p : Precision) : List String :=
  let l := p.limits
  [p.name ++ ":",
    "  max:          " ++ l.max.widen.decimalText,
    "  min_positive: " ++ l.minPositive.widen.decimalText,
    "  denorm_min:   " ++ l.denormMin.widen.decimalText,
    "  epsilon:      " ++ l.epsilon.widen.decimalText,
    "  digits:       " ++ toString l.digits,
    "  exponents:    [" ++ toString l.minExp ++ ", " ++ toString l.maxExp ++ "]"]

def infoLines : List String :=
  ["ulpcheck", "Version: " ++ programVersion, ""] ++ Invocation.narrow.flatMap limitLines

/-! ## Responses -/

/-- A success, or a failure that leaves nothing to print. -/
def plainResponse : Except AuditError (List String) → Response
  | .ok lines => ⟨0, unlines lines, none⟩
  | .error error => ⟨1, "", some error.message⟩

/-- The response to a report; a case that fails is a failure. -/
def reportResponse (path : String) (json : Bool) (report : Report) : Response :=
  let output := if json then unlines [Json.pretty report.toData] else reportText report
  if report.allPassed then
    ⟨0, output, none⟩
  else
    let count := toString report.failed ++ " of " ++ toString report.total
    ⟨1, output, some (count ++ " cases failed in " ++ path)⟩

/-- The response to a command under a configuration. -/
def run (files : Files) (config : Config) : Command → Response
  | convert value formats rounding random => plainResponse (convertLines value formats rounding random)
  | decode word p => plainResponse (decodeLines word p)
  | ulp a b p => plainResponse (.ok [distanceLine a b p])
  | info => plainResponse (.ok infoLines)
  | check path json =>
    match CaseFile.load files path >>= (·.evaluate config.tolerance) with
    | .ok report => reportResponse path (json || config.report.json) report
    | .error error => ⟨1, "", some error.message⟩

end Command

/-- The response to the words of a command line, from the command that they are read as. The configuration is read
before the command is run. -/
def respondBy (read : List String → Except Stop Invocation) (files : Files) (words : List String) : Response :=
  match read words with
  | .error .version => ⟨0, unlines ["ulpc " ++ programVersion], none⟩
  | .error .help => ⟨0, "", some "commands: convert, decode, ulp, check, info"⟩
  | .error .usage => ⟨2, "", some "the words make no command"⟩
  | .ok invocation =>
    match Config.discover files invocation.config with
    | .ok config => invocation.command.run files config
    | .error error => ⟨1, "", some error.message⟩

/-- The response to the words of a command line. -/
def respond : Files → List String → Response := respondBy Invocation.read

end PrecisionAudit
