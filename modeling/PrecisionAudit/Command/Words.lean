import PrecisionAudit.Keyed

/-!
# The words of a command line

A word is a flag, the value of a flag, a command or an argument. A flag has a long name after two dashes and perhaps a
letter after one dash; letters can be joined in one word. The value of a flag follows an equals sign, or the letter of
the flag, or stands in the next word. After two dashes alone, all words are arguments.

* `Grammar`: the flags, arguments and commands that are known.
* `Grammar.scan`: the flags and arguments up to a command.
* `Grammar.finish`: all flags and arguments, none of them missing.

A value is judged when the next flag is met or when the words end.
-/

namespace PrecisionAudit

/-- Why the words do not lead to a command that can be run. -/
inductive Stop
  /-- A description of the commands is asked for. -/
  | help
  | version
  /-- The words do not fit the grammar. -/
  | usage
  deriving DecidableEq, Repr

structure Flag where
  long : String
  short : Option Char
  /-- Which values the flag takes, if it takes one at all. -/
  accepts : Option (String → Bool)

namespace Flag

def help : Flag := ⟨"help", some 'h', none⟩

def version : Flag := ⟨"version", some 'V', none⟩

end Flag

/-- An argument. -/
structure Operand where
  /-- Whether a word that looks like a negative number can be the argument. -/
  allowsNegative : Bool
  accepts : String → Bool

structure Grammar where
  flags : List Flag
  operands : List Operand
  /-- The words that are commands. -/
  commands : List String
  /-- The flags that must be given. -/
  required : List String

/-- What has been read. -/
structure Reading where
  /-- The flags by their long names, with their values; a flag that takes no value has the empty one. -/
  flags : Keyed String String
  operands : List String
  /-- A flag that has not been judged, with its value as far as it is known. -/
  pending : Option (Flag × Option String)

namespace Reading

def start : Reading := ⟨[], [], none⟩

/-- Takes a flag over, which must not have been given before. -/
def record (r : Reading) (flag : Flag) (value : String) : Except Stop Reading :=
  if (r.flags.get? flag.long).isSome || !(flag.accepts.all (· value)) then
    .error .usage
  else
    .ok { r with flags := r.flags ++ [(flag.long, value)], pending := none }

/-- Judges the flag that has not been judged. -/
def settle (r : Reading) : Except Stop Reading :=
  match r.pending with
  | none => .ok r
  | some (_, none) => .error .usage
  | some (flag, some value) => r.record flag value

/-- Whether the next word is the value of a flag. -/
def awaitsValue (r : Reading) : Bool :=
  match r.pending with
  | some (_, none) => true
  | _ => false

/-- Reads a flag, perhaps with its value. -/
def enter (r : Reading) (flag : Flag) (attached : Option String) : Except Stop Reading := do
  let r ← r.settle
  match flag.accepts, attached with
  | none, some _ => throw .usage
  | none, none =>
    if flag.long = Flag.help.long then throw .help
    else if flag.long = Flag.version.long then throw .version
    else r.record flag ""
  | some _, some value => r.record flag value
  | some _, none => return { r with pending := some (flag, none) }

end Reading

/-- Whether a character separates the digits of a number from those of its exponent. -/
def isExponentMark (c : Char) : Bool := c == 'e' || c == 'E'

/-- Whether the characters after a dash look like a number: digits with at most one point, which is not the first
character, and at most one exponent mark after them, which is neither the first nor the last character. -/
def looksNumeric (cs : List Char) : Bool :=
  let mantissa := cs.takeWhile (!isExponentMark ·)
  let exponent := cs.dropWhile (!isExponentMark ·)
  mantissa.all (fun c => c.isDigit || c == '.') && mantissa.count '.' ≤ 1 && mantissa.head? != some '.'
    && (exponent.isEmpty || (!mantissa.isEmpty && 1 < exponent.length && (exponent.drop 1).all Char.isDigit))

namespace Grammar

/-- Reads flags that are written as letters. -/
def readLetters (g : Grammar) (r : Reading) : List Char → Except Stop Reading
  | [] => .ok r
  | c :: rest =>
    match g.flags.find? (·.short == some c) with
    | none => .error .usage
    | some flag =>
      if flag.accepts.isNone then do
        g.readLetters (← r.enter flag none) rest
      else
        match rest with
        | [] => r.enter flag none
        | '=' :: value => r.enter flag (some (String.ofList value))
        | value => r.enter flag (some (String.ofList value))

/-- Reads a flag that is written with its long name, and perhaps an equals sign and a value. -/
def readLong (g : Grammar) (r : Reading) (cs : List Char) : Except Stop Reading :=
  let name := String.ofList (cs.takeWhile (· != '='))
  match g.flags.find? (·.long == name), cs.dropWhile (· != '=') with
  | none, _ => .error .usage
  | some flag, '=' :: value => r.enter flag (some (String.ofList value))
  | some flag, _ => r.enter flag none

/-- Reads an argument. -/
def readOperand (g : Grammar) (r : Reading) (word : String) : Except Stop Reading := do
  let r ← r.settle
  match g.operands[r.operands.length]? with
  | some operand => if operand.accepts word then return { r with operands := r.operands ++ [word] } else throw .usage
  | none => throw .usage

/-- Reads a word that is no flag: the value of a flag, or an argument. -/
def readValue (g : Grammar) (r : Reading) (word : String) : Except Stop Reading :=
  match r.pending with
  | some (flag, none) => .ok { r with pending := some (flag, some word) }
  | _ => g.readOperand r word

/-- Whether a word with one dash is a number rather than letters. -/
def isNegative (g : Grammar) (r : Reading) (cs : List Char) : Bool :=
  looksNumeric cs && (g.operands[r.operands.length]?).any (·.allowsNegative)

/-- Reads a word before two dashes alone. -/
def readWord (g : Grammar) (r : Reading) (word : String) : Except Stop Reading :=
  match word.toList with
  | '-' :: '-' :: cs => g.readLong r cs
  | '-' :: c :: cs => if g.isNegative r (c :: cs) then g.readValue r word else g.readLetters r (c :: cs)
  | _ => g.readValue r word

/-- Reads words up to a command, which is returned with the words after it. -/
def scan (g : Grammar) (r : Reading) : List String → Except Stop (Reading × Option (String × List String))
  | [] => .ok (r, none)
  | word :: rest =>
    if !r.awaitsValue && g.commands.contains word then
      .ok (r, some (word, rest))
    else if word = "--" then do
      return (← rest.foldlM g.readOperand r, none)
    else do
      g.scan (← g.readWord r word) rest

/-- Reads all words as flags and arguments, none of which may be missing. -/
def finish (g : Grammar) (words : List String) : Except Stop Reading := do
  let (r, _) ← g.scan .start words
  let r ← r.settle
  if r.operands.length < g.operands.length || g.required.any fun name => (r.flags.get? name).isNone then
    throw .usage
  return r

end Grammar

end PrecisionAudit
