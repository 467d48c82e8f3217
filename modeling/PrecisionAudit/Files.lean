import PrecisionAudit.Config

/-!
# Files

Case files and configurations are read from files by their paths.

* `CaseFile.load`, `Config.load`.
* `Config.discover`: the configuration of a given file, or of the usual one if it exists, or the standard one.
-/

namespace PrecisionAudit

/-- What is found at a path. -/
inductive Stored
  | missing
  /-- Something that is no text. -/
  | unreadable
  | text (content : String)
  deriving DecidableEq, Repr, Inhabited

/-- What is found at each path. -/
abbrev Files := String → Stored

/-- The text at a path. -/
def Files.read (files : Files) (path : String) : Except AuditError String :=
  match files path with
  | .text content => .ok content
  | .missing | .unreadable => .error (.unreadable path)

def CaseFile.load (files : Files) (path : String) : Except AuditError CaseFile := do
  CaseFile.read (← files.read path)

namespace Config

/-- The file that is used where none is given. -/
def usualPath : String := "ulpcheck.toml"

def load (files : Files) (path : String) : Except AuditError Config := do
  Config.read (← files.read path)

/-- The configuration of a given file, or of the usual one if it exists, or the standard one. -/
def discover (files : Files) (path : Option String) : Except AuditError Config :=
  match path, files usualPath with
  | some path, _ => load files path
  | none, .missing => .ok standard
  | none, _ => load files usualPath

end Config

end PrecisionAudit
