import CaseCover.Digest.Md5
import CaseCover.FileTree.Walk
import CaseCover.Issue

/-!
# The cache

The cache remembers the issues of a package directory together with a fingerprint of its source
files: a digest over their names and contents. A remembered entry counts as long as the
fingerprint of the directory is still the same.
-/

namespace CaseCover

/-- Why a directory has no fingerprint. -/
inductive HashError where
  | pattern (fault : Path.GlobError)
  | openFile (fault : PathError)
  | readFile (fault : PathError)
deriving DecidableEq

/-- The message of the fault. -/
def HashError.message : HashError → Text
  | .pattern f => f.message
  | .openFile f => utf8 "failed to open file: " ++ f.message
  | .readFile f => utf8 "failed to calculate hash: " ++ f.message

namespace Fingerprint

/-- The bytes from which a fingerprint is made: for each file its name, a zero byte and its
content. -/
def stream (files : List (Text × Text)) : Text :=
  files.flatMap fun (name, content) => name ++ 0 :: content

/-- The name and content of a file. -/
def namedContent (t : FileTree) (path : Text) : Except HashError (Text × Text) :=
  match t.openNode path with
  | .error e => .error (.openFile e)
  | .ok (.file content) => .ok (Path.base path, content)
  | .ok _ => .error (.readFile ⟨"read", path, .isDirectory⟩)

/-- The source files of a directory, in the order of their paths. The path of the directory is part
of the pattern that finds them. -/
def sources (t : FileTree) (dir : Text) : Except HashError (List (Text × Text)) :=
  match t.glob (Path.join [dir, "*.go"]) with
  | .error e => .error (.pattern e)
  | .ok paths => (Text.sort paths).mapM (namedContent t)

/-- The fingerprint of a directory. -/
def ofDir (t : FileTree) (dir : Text) : Except HashError Text := do
  return Md5.hexDigest (stream (← sources t dir))

end Fingerprint

/-- What is remembered about a directory. -/
structure Cache.Entry where
  hash : Text
  issues : List Issue
deriving DecidableEq

/-- Remembered directories. -/
structure Cache where
  entries : List (Text × Cache.Entry)

namespace Cache

/-- Nothing is remembered. -/
def empty : Cache := ⟨[]⟩

/-- The issues remembered for a directory, if its source files are unchanged. -/
def get? (c : Cache) (t : FileTree) (dir : Text) : Option (List Issue) :=
  match Fingerprint.ofDir t dir with
  | .error _ => none
  | .ok hash =>
    match c.entries.lookup dir with
    | some e => if e.hash == hash then some e.issues else none
    | none => none

/-- Forgets a directory. -/
def erase (c : Cache) (dir : Text) : Cache := ⟨c.entries.filter fun e => e.1 != dir⟩

/-- A directory that cannot be remembered. -/
structure InsertError where
  cause : HashError
deriving DecidableEq

/-- The message of the fault. -/
def InsertError.message (e : InsertError) : Text := utf8 "failed to hash package: " ++ e.cause.message

/-- Remembers issues for a directory as it is now. -/
def insert (c : Cache) (t : FileTree) (dir : Text) (issues : List Issue) : Except InsertError Cache :=
  match Fingerprint.ofDir t dir with
  | .error e => .error ⟨e⟩
  | .ok hash => .ok ⟨(dir, ⟨hash, issues⟩) :: (c.erase dir).entries⟩

end Cache

end CaseCover
