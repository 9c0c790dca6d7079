import LikelyInvariants.Config.Selection
import LikelyInvariants.Platform.SystemFile

/-!
# Configuration files

A configuration may be in a file of the system. A directory cannot be read as a text, nor can a
program, nor anything below a file, nor a path no system can have.
-/

namespace LikelyInvariants

/-- What is found at a path. -/
def Config.FileContent.atPath (path : String) : FileContent :=
  if path.toList.contains '\x00' then .unreadable
  else
    match SystemFile.atPath path with
    | .error .absent => .absent
    | .ok (_, .emptyText) => .text ""
    | .ok (_, .foreignText) => .text ":"
    | _ => .unreadable

/-- The configuration in the file at a path. -/
def Config.load (path : String) : Except Error Config := ofFile path (.atPath path)

/-- A context with what the configuration in the file at a path leaves enabled. -/
def Context.load (path : String) : Except Error Context := do ofConfig (← Config.load path)

end LikelyInvariants
