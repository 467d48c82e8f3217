import PrecisionAudit.Data.Basic
import PrecisionAudit.Keyed

/-!
# Tables in TOML

A document is built up statement by statement. A table may be named by a header, may stand above a table that a header
names, or may be the effect of a dotted key; what may later be added to it depends on how it came about.

* `Toml.Node`: a value, a table or an array of tables under construction.
* `Toml.openTable?`, `Toml.openElement?`: the effect of a header.
* `Toml.insert?`: the effect of an entry.
* `Toml.Node.toData`: the finished value.

The functions are `none` where a statement contradicts an earlier one.
-/

namespace PrecisionAudit

namespace Toml

/-- How a table came about. -/
inductive Origin
  /-- It stands above a table that a header names. -/
  | implied
  /-- It is the effect of a dotted key. -/
  | dotted
  /-- A header names it. -/
  | named
  deriving DecidableEq, Repr

/-- What a name stands for while a document is read. -/
inductive Node
  /-- A value that is complete. -/
  | value (data : Data)
  | table (origin : Origin) (entries : List (String × Node))
  /-- Tables that are added one by one, the last one being open. -/
  | tables (closed : List Data) (last : List (String × Node))
  deriving Inhabited

/-- Named nodes in the order in which they were added. -/
abbrev Entries := Keyed String Node

/-! ## Finished values -/

mutual

def Node.toData : Node → Data
  | .value data => data
  | .table _ entries => .table (finish entries)
  | .tables closed last => .list (closed ++ [.table (finish last)])

/-- The finished entries of a table. -/
def finish : List (String × Node) → List (String × Data)
  | [] => []
  | (name, node) :: rest => (name, node.toData) :: finish rest

end

/-! ## Statements -/

/-- Changes the table that a path leads to from a table of a given origin. Tables on the way that do not exist are
made. Each way into an array of tables leads to its last element. A dotted key, unlike a header, leads into no table
that a header names. -/
def update? (dotted : Bool) (change : Origin → Entries → Option Entries) :
    List String → Origin → Entries → Option Entries
  | [], origin, entries => change origin entries
  | name :: path, _, entries =>
    match entries.get? name with
    | none => do
      let origin := if dotted then .dotted else .implied
      return entries.set name (.table origin (← update? dotted change path origin []))
    | some (.table origin inner) =>
      if dotted ∧ origin = .named then none
      else do return entries.set name (.table origin (← update? dotted change path origin inner))
    | some (.tables closed last) => do
      return entries.set name (.tables closed (← update? dotted change path .named last))
    | some (.value _) => none

/-- The effect of a header that names a table. A table that was only implied so far becomes a named one. -/
def openTable? (parents : List String) (name : String) : Entries → Option Entries :=
  update? false (fun _ entries =>
    match entries.get? name with
    | none => some (entries.set name (.table .named []))
    | some (.table .implied inner) => some (entries.set name (.table .named inner))
    | some _ => none) parents .named

/-- The effect of a header that adds an element to an array of tables. -/
def openElement? (parents : List String) (name : String) : Entries → Option Entries :=
  update? false (fun _ entries =>
    match entries.get? name with
    | none => some (entries.set name (.tables [] []))
    | some (.tables closed last) => some (entries.set name (.tables (closed ++ [.table (finish last)]) []))
    | some _ => none) parents .named

/-- The effect of an entry under a key, whose parents are dotted, within a table. The table to which it is added must be
one that dotted keys made, unless the key has no parents. -/
def add? (parents : List String) (name : String) (data : Data) : Origin → Entries → Option Entries :=
  update? true (fun origin entries =>
    if (origin == .dotted) == parents.isEmpty || (entries.get? name).isSome then none
    else some (entries.set name (.value data))) parents

/-- The effect of an entry within the table that the last header opened. -/
def insert? (header parents : List String) (name : String) (data : Data) : Entries → Option Entries :=
  update? false (fun _ entries => add? parents name data .named entries) header .named

end Toml

end PrecisionAudit
