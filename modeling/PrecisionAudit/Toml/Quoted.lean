import PrecisionAudit.Text.Hex
import PrecisionAudit.Toml.Blank

/-!
# Quoted text in TOML

Text stands between double quotes, where a backslash starts an escape, or between single quotes, where all characters
stand for themselves. Three quotes instead of one allow line ends in the text; a line end right after the opening
quotes is not part of it.

* `Toml.readLine?`: text on one line, after its opening quote.
* `Toml.readBlock?`: text over lines, after its opening quotes.
-/

namespace PrecisionAudit

namespace Toml

/-- Which quotes enclose a text. -/
inductive Quotes
  /-- Double quotes, with escapes. -/
  | basic
  /-- Single quotes. -/
  | literal
  deriving DecidableEq, Repr

def Quotes.char : Quotes → Char
  | basic => '"'
  | literal => '\''

/-- The character with a given code point, which must not be a surrogate. -/
def scalarChar? (code : Nat) : Option Char :=
  if code < 0xd800 ∨ 0xe000 ≤ code ∧ code < 0x110000 then some (Char.ofNat code) else none

/-- A code point in a fixed number of hexadecimal digits. -/
def readCode? (digitCount : Nat) (cs : List Char) : Option (Char × List Char) := do
  let written := cs.take digitCount
  if written.length < digitCount then none
  let digits ← written.mapM Hex.digitValue?
  return (← scalarChar? (digits.foldl (fun n d => n * 16 + d) 0), cs.drop digitCount)

/-- An escape after its backslash. -/
def readEscape? : List Char → Option (Char × List Char)
  | 'b' :: rest => some (Char.ofNat 8, rest)
  | 'f' :: rest => some (Char.ofNat 12, rest)
  | 'n' :: rest => some ('\n', rest)
  | 'r' :: rest => some ('\r', rest)
  | 't' :: rest => some ('\t', rest)
  | '"' :: rest => some ('"', rest)
  | '\\' :: rest => some ('\\', rest)
  | 'u' :: rest => readCode? 4 rest
  | 'U' :: rest => readCode? 8 rest
  | _ => none

/-- A character of a text, written as an escape or as itself. -/
def readChar? (quotes : Quotes) : List Char → Option (Char × List Char)
  | '\\' :: rest => if quotes = .basic then readEscape? rest else some ('\\', rest)
  | c :: rest => if isPrintable c then some (c, rest) else none
  | [] => none

/-- The characters of a text up to the closing quote on the same line. -/
def readLine? (quotes : Quotes) : Nat → List Char → Option (List Char × List Char)
  | 0, _ => none
  | _ + 1, [] => none
  | fuel + 1, c :: rest =>
    if c = quotes.char then
      some ([], rest)
    else do
      let (char, rest) ← readChar? quotes (c :: rest)
      let (chars, rest) ← readLine? quotes fuel rest
      return (char :: chars, rest)

/-- Skips a backslash that ends a line together with the blank lines after it. -/
def continuedLine? : List Char → Option (List Char)
  | '\\' :: rest => (lineEnd? (skipBlanks rest)).map skipBlankLines
  | _ => none

/-- The characters of a text up to the three closing quotes. One or two quotes right before them, and elsewhere, belong
to the text. -/
def readBlock? (quotes : Quotes) : Nat → List Char → Option (List Char × List Char)
  | 0, _ => none
  | fuel + 1, cs =>
    let run := (cs.takeWhile (· == quotes.char)).length
    if 6 ≤ run then
      none
    else if 3 ≤ run then
      some (List.replicate (run - 3) quotes.char, cs.drop run)
    else if 0 < run then
      (readBlock? quotes fuel (cs.drop run)).map fun (chars, rest) => (List.replicate run quotes.char ++ chars, rest)
    else
      match lineEnd? cs, if quotes = .basic then continuedLine? cs else none with
      | some rest, _ => (readBlock? quotes fuel rest).map fun (chars, rest) => ('\n' :: chars, rest)
      | none, some rest => readBlock? quotes fuel rest
      | none, none => do
        let (char, rest) ← readChar? quotes cs
        let (chars, rest) ← readBlock? quotes fuel rest
        return (char :: chars, rest)

/-- A quoted text after its first quote, on one line. -/
def lineText? (quotes : Quotes) (cs : List Char) : Option (String × List Char) :=
  (readLine? quotes (cs.length + 1) cs).map fun (chars, rest) => (String.ofList chars, rest)

/-- A quoted text after its first three quotes. -/
def blockText? (quotes : Quotes) (cs : List Char) : Option (String × List Char) :=
  let cs := (lineEnd? cs).getD cs
  (readBlock? quotes (cs.length + 1) cs).map fun (chars, rest) => (String.ofList chars, rest)

end Toml

end PrecisionAudit
