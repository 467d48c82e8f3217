import PrecisionAudit.Command.Response

/-!
# The program

Reads the files that the words of the command line name, and prints the response.
-/

namespace PrecisionAudit

/-- The paths that a command may read. -/
def Invocation.paths (invocation : Invocation) : List String :=
  let cases := match invocation.command with
    | .check path _ => [path]
    | _ => []
  [Config.usualPath] ++ invocation.config.toList ++ cases

/-- Looks at a path. -/
def lookAt (path : String) : IO Stored := do
  try
    return .text (← IO.FS.readFile path)
  catch
    | .noFileOrDirectory .. => return .missing
    | _ => return .unreadable

/-- Looks at the paths that the words of a command line name. -/
def lookAtAll (words : List String) : IO Files := do
  let paths := match Invocation.read words with
    | .ok invocation => invocation.paths
    | .error _ => []
  let found ← paths.mapM fun path => return (path, ← lookAt path)
  return fun path => (Keyed.get? found path).getD .missing

end PrecisionAudit

open PrecisionAudit in
def main (words : List String) : IO UInt32 := do
  let response := respond (← lookAtAll words) words
  IO.print response.output
  match response.complaint with
  | some text => IO.eprintln text
  | none => pure ()
  return response.exitCode.toUInt32
