import CaseCover.FileTree
import CaseCover.Path.Glob

/-!
# Finding files

Package directories are found by walking a tree without following links: every directory with a
source file is one, except below directories that are skipped. Glob patterns find the paths that
match them.
-/

namespace CaseCover.FileTree

/-- The extension of source files. -/
def sourceExt : Text := ".go"

/-- The name of a source file. -/
def isSourceName (p : Text) : Bool := Path.ext p == sourceExt

/-- A directory that holds no packages worth looking at. -/
def isSkippedName (name : Text) : Bool :=
  name == utf8 "vendor" || name == utf8 "testdata" || Text.startsWith name "." ||
    Text.startsWith name "_"

mutual

/-- The paths of all files and links below a node at a path. Below the start, directories with a
skipped name are passed over. -/
def leaves (path : Text) : FileNode → List Text
  | .dir entries => leavesOf path entries
  | _ => [path]

/-- The paths of files and links among the entries of a directory. -/
def leavesOf (path : Text) : List (Text × FileNode) → List Text
  | [] => []
  | (name, .dir entries) :: rest =>
    (if isSkippedName name then [] else leavesOf (Path.join [path, name]) entries) ++
      leavesOf path rest
  | (name, _) :: rest => Path.join [path, name] :: leavesOf path rest

end

/-- A directory could not be walked. -/
structure WalkError where
  root : Text
  cause : PathError
deriving DecidableEq

/-- The message of a failed walk. -/
def WalkError.message (e : WalkError) : Text :=
  utf8 "error walking " ++ e.root ++ utf8 ": " ++ e.cause.message

/-- The directories below a root that hold source files, sorted. -/
def sourceDirs (t : FileTree) (root : Text) : Except WalkError (List Text) :=
  match t.lstat root with
  | .error e => .error ⟨root, e⟩
  | .ok n => .ok (Text.sort (((leaves root n).filter isSourceName).map Path.dir).eraseDups)

mutual

/-- The directories below a node at a path, itself included; skipped ones are passed over. -/
def dirsBelow (path : Text) : FileNode → List Text
  | .dir entries => path :: dirsOf path entries
  | _ => []

/-- The directories among the entries of a directory and below them. -/
def dirsOf (path : Text) : List (Text × FileNode) → List Text
  | [] => []
  | (name, .dir entries) :: rest =>
    let here := Path.join [path, name]
    (if isSkippedName name then [] else here :: dirsOf here entries) ++ dirsOf path rest
  | _ :: rest => dirsOf path rest

end

/-- The directories below a root, itself included. -/
def directories (t : FileTree) (root : Text) : Except PathError (List Text) := do
  return dirsBelow root (← t.lstat root)

/-! ## Patterns -/

/-- The paths in a directory whose name matches a pattern. -/
def globIn (t : FileTree) (pattern dir : Text) : Except Path.GlobError (List Text) :=
  match t.stat dir with
  | .ok (.dir entries) => do
    let found ← entries.filterM fun e => Path.glob pattern e.1
    return found.map fun e => Path.join [dir, e.1]
  | _ => .ok []

/-- The paths that match a pattern, with at most so many components. -/
def globWithin (t : FileTree) : Nat → Text → Except Path.GlobError (List Text)
  | 0, _ => .error .badPattern
  | fuel + 1, pattern => do
    let _ ← Path.glob pattern []
    if !Path.hasMeta pattern then
      return if (t.lstat pattern).isOk then [pattern] else []
    let (lead, file) := Path.split pattern
    let dir :=
      if lead.isEmpty then utf8 "." else if lead == [Path.separator] then lead else lead.dropLast
    if !Path.hasMeta dir then t.globIn file dir
    else if dir == pattern then throw .badPattern
    else
      let dirs ← globWithin t fuel dir
      return (← dirs.mapM (t.globIn file)).flatten

/-- The paths that match a pattern. -/
def glob (t : FileTree) (pattern : Text) : Except Path.GlobError (List Text) :=
  globWithin t (pattern.length + 1) pattern

end CaseCover.FileTree
