import PrecisionAudit.Toml.Moment
import PrecisionAudit.Toml.Plain
import PrecisionAudit.Toml.Quoted
import PrecisionAudit.Toml.Tree

/-!
# Reading TOML

`Toml.parse?` reads a document: statements on lines of their own, each an entry or a header. Lists and tables in braces
may stand within each other, and names in a key, only up to `Toml.depthLimit`.

Each reader takes the text to read and returns what it has read together with the rest.
-/

namespace PrecisionAudit

namespace Toml

/-- How many lists and tables in braces may enclose a value, and how many names a key may have. -/
def depthLimit : Nat := 79

/-! ## Keys -/

/-- A key with the names of the tables above it, if it is dotted. -/
structure Key where
  parents : List String
  name : String
  deriving DecidableEq, Repr

/-- Whether a character can be part of a name without quotes. -/
def isNameChar (c : Char) : Bool := c.isAlphanum || c == '-' || c == '_'

/-- One name of a key. -/
def readName? : List Char → Option (String × List Char)
  | '"' :: rest => lineText? .basic rest
  | '\'' :: rest => lineText? .literal rest
  | cs =>
    match cs.takeWhile isNameChar with
    | [] => none
    | name => some (String.ofList name, cs.dropWhile isNameChar)

/-- A key of a limited number of names with the blanks around it. -/
def readKeyWithin? : Nat → List Char → Option (Key × List Char)
  | 0, _ => none
  | limit + 1, cs => do
    let (name, rest) ← readName? (skipBlanks cs)
    match skipBlanks rest with
    | '.' :: rest =>
      let (key, rest) ← readKeyWithin? limit rest
      return (⟨name :: key.parents, key.name⟩, rest)
    | rest => return (⟨[], name⟩, rest)

/-- A key with the blanks around it. -/
def readKey? : List Char → Option (Key × List Char) := readKeyWithin? depthLimit

/-- A key, the equals sign after it and the blanks after that. -/
def readAssigned? (cs : List Char) : Option (Key × List Char) := do
  let (key, '=' :: rest) ← readKey? cs | none
  return (key, skipBlanks rest)

/-! ## Values -/

/-- The table of the entries of a table in braces. -/
def inlineTable? (pairs : List (Key × Data)) : Option Data := do
  let entries ← pairs.foldlM (fun entries (key, data) => add? key.parents key.name data .named entries) []
  return .table (finish entries)

mutual

/-- A value, in which lists and tables in braces stand within each other up to a given depth. -/
def readValue? : Nat → Nat → List Char → Option (Data × List Char)
  | 0, _, _ => none
  | fuel + 1, depth, cs =>
    match depth, cs with
    | _, '"' :: '"' :: '"' :: rest => (blockText? .basic rest).map fun (s, rest) => (.text s, rest)
    | _, '"' :: rest => (lineText? .basic rest).map fun (s, rest) => (.text s, rest)
    | _, '\'' :: '\'' :: '\'' :: rest => (blockText? .literal rest).map fun (s, rest) => (.text s, rest)
    | _, '\'' :: rest => (lineText? .literal rest).map fun (s, rest) => (.text s, rest)
    | depth + 1, '[' :: rest => do
      match ← skipTrivia? false rest with
      | ']' :: rest => return (.list [], rest)
      | rest =>
        let (items, rest) ← readItems? fuel depth rest
        return (.list items, rest)
    | depth + 1, '\x7b' :: rest =>
      match skipBlanks rest with
      | '\x7d' :: rest => some (.table [], rest)
      | rest => do
        let (pairs, rest) ← readPairs? fuel depth rest
        return (← inlineTable? pairs, rest)
    | _, cs =>
      match skipMoment? cs with
      | some rest => some (.moment (String.ofList (cs.take (cs.length - rest.length))), rest)
      | none => (plain? (cs.takeWhile isPlain)).map fun data => (data, cs.dropWhile isPlain)

/-- The values of a list up to its closing bracket. A comma may follow the last one. -/
def readItems? : Nat → Nat → List Char → Option (List Data × List Char)
  | 0, _, _ => none
  | fuel + 1, depth, cs => do
    let (item, rest) ← readValue? fuel depth cs
    match ← skipTrivia? false rest with
    | ']' :: rest => return ([item], rest)
    | ',' :: rest =>
      match ← skipTrivia? false rest with
      | ']' :: rest => return ([item], rest)
      | rest =>
        let (items, rest) ← readItems? fuel depth rest
        return (item :: items, rest)
    | _ => none

/-- The entries of a table in braces up to the closing brace. -/
def readPairs? : Nat → Nat → List Char → Option (List (Key × Data) × List Char)
  | 0, _, _ => none
  | fuel + 1, depth, cs => do
    let (key, rest) ← readAssigned? cs
    let (data, rest) ← readValue? fuel depth rest
    match skipBlanks rest with
    | '\x7d' :: rest => return ([(key, data)], rest)
    | ',' :: rest =>
      let (pairs, rest) ← readPairs? fuel depth rest
      return ((key, data) :: pairs, rest)
    | _ => none

end

/-! ## Documents -/

/-- A document while it is read. -/
structure Draft where
  entries : Entries
  /-- The path of the last header. -/
  header : List String

/-- Reads one statement into a draft. -/
def readStatement? (fuel : Nat) (draft : Draft) (cs : List Char) : Option (Draft × List Char) := do
  match cs with
  | '[' :: '[' :: rest =>
    let (key, ']' :: ']' :: rest) ← readKey? rest | none
    let entries ← openElement? key.parents key.name draft.entries
    return (⟨entries, key.parents ++ [key.name]⟩, ← statementEnd? rest)
  | '[' :: rest =>
    let (key, ']' :: rest) ← readKey? rest | none
    let entries ← openTable? key.parents key.name draft.entries
    return (⟨entries, key.parents ++ [key.name]⟩, ← statementEnd? rest)
  | cs =>
    let (key, rest) ← readAssigned? cs
    let (data, rest) ← readValue? fuel depthLimit rest
    let entries ← insert? draft.header key.parents key.name data draft.entries
    return (⟨entries, draft.header⟩, ← statementEnd? rest)

/-- Reads all statements that are left into a draft. -/
def readStatements? (limit : Nat) : Nat → Draft → List Char → Option Draft
  | 0, _, _ => none
  | fuel + 1, draft, cs =>
    match skipBlanks cs with
    | [] => some draft
    | c :: rest =>
      if c = '#' ∨ c = '\n' ∨ c = '\r' then
        (statementEnd? (c :: rest)).bind (readStatements? limit fuel draft)
      else
        (readStatement? limit draft (c :: rest)).bind fun (draft, rest) => readStatements? limit fuel draft rest

/-- The table that a document describes. A byte order mark at its start is ignored. -/
def parse? (text : String) : Option Data := do
  let cs := match text.toList with
    | '\ufeff' :: rest => rest
    | cs => cs
  let draft ← readStatements? (cs.length + 1) (cs.length + 1) ⟨[], []⟩ cs
  return .table (finish draft.entries)

end Toml

end PrecisionAudit
