/-!
# Blanks and comments in TOML

A line ends with a line feed, which a carriage return may precede. Blanks, comments and line ends separate what is
written, and where line ends do not matter all three may be mixed.
-/

namespace PrecisionAudit

namespace Toml

def isBlank (c : Char) : Bool := c == ' ' || c == '\t'

/-- Whether a character may stand in a comment: a tab, or any that is no control character of ASCII. -/
def isPrintable (c : Char) : Bool := c == '\t' || (32 ≤ c.toNat && c.toNat != 127)

def skipBlanks (cs : List Char) : List Char := cs.dropWhile isBlank

/-- Skips a line end. -/
def lineEnd? : List Char → Option (List Char)
  | '\n' :: rest | '\r' :: '\n' :: rest => some rest
  | _ => none

/-- Skips what may follow a statement: blanks, a comment and the line end or the end of the text. -/
def statementEnd? (cs : List Char) : Option (List Char) :=
  let cs := match skipBlanks cs with
    | '#' :: rest => rest.dropWhile isPrintable
    | rest => rest
  if cs.isEmpty then some [] else lineEnd? cs

/-- Skips blanks and line ends. -/
def skipBlankLines : List Char → List Char
  | ' ' :: rest | '\t' :: rest | '\n' :: rest | '\r' :: '\n' :: rest => skipBlankLines rest
  | cs => cs

/-- Skips blanks, line ends and comments, each of which reaches to a line end. -/
def skipTrivia? (inComment : Bool) : List Char → Option (List Char)
  | '\n' :: rest | '\r' :: '\n' :: rest => skipTrivia? false rest
  | c :: rest =>
    if inComment then
      if isPrintable c then skipTrivia? true rest else none
    else if c = '#' then
      skipTrivia? true rest
    else if isBlank c then
      skipTrivia? false rest
    else
      some (c :: rest)
  | [] => if inComment then none else some []

end Toml

end PrecisionAudit
