import CaseCover.Config
import CaseCover.FileTree

/-!
# Configuration files

A configuration is read from a file. Without a name the file with the default name is read, and if
that does not exist the default configuration holds; a file asked for by name has to exist.
-/

namespace CaseCover

/-- Why there is no configuration. -/
inductive ConfigLoadFault where
  | openFile (cause : PathError)
  | unreadable (cause : PathError)
  | content (fault : ConfigFault)
deriving DecidableEq

/-- The message of a fault, where it is the program's own. -/
def ConfigLoadFault.message? : ConfigLoadFault → Option Text
  | .openFile e => some (utf8 "error opening configuration: " ++ e.message)
  | .unreadable _ => none
  | .content f => f.message?.map fun m => utf8 "error parsing configuration: " ++ m

namespace Config

/-- The name of the configuration file. -/
def defaultPath : Text := ".totality.yaml"

/-- The path of the configuration file; an empty one means the default. -/
def pathOf (path : Text) : Text := if path.isEmpty then defaultPath else path

/-- Reads a configuration from its text. -/
def ofContent (t : Text) : Except ConfigLoadFault Config := (parse t).mapError .content

/-- Reads the configuration file at a path. -/
def load (t : FileTree) (path : Text) : Except ConfigLoadFault Config :=
  match t.openNode (pathOf path) with
  | .error e =>
    if path.isEmpty && e.cause == .notFound then .ok default else .error (.openFile e)
  | .ok (.file content) => ofContent content
  | .ok _ => .error (.unreadable ⟨"read", pathOf path, .isDirectory⟩)

/-- Writes the default configuration to a file. -/
def writeDefault (t : FileTree) (path : Text) : Except PathError FileTree :=
  t.writeFile path defaultDocument

end Config

end CaseCover
