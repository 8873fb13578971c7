import CaseCover.FileTree
import CaseCover.Workspace.ModuleFile

/-!
# Modules

A module is a directory with a module file, which gives the module its path and says which release of
the language it is written in. The directories below it that belong to no other module hold its
packages; the path of a package is the path of the module followed by the way to the directory.
-/

namespace CaseCover

/-- A module: its directory, its path, and the release of the language that it is written in. -/
structure Module where
  root : Text
  path : Text
  release : Constraint.Release
deriving DecidableEq

namespace Module

/-- A directory has a module file of its own. -/
def isRoot (t : FileTree) (dir : Text) : Bool :=
  match t.stat (Path.join [dir, ModuleFile.fileName]) with
  | .ok (.file _) => true
  | _ => false

/-- The directory nearest to a directory that has a module file, looking at it and at most so many
directories above it. -/
def nearestRoot? (t : FileTree) : Nat → Text → Option Text
  | 0, _ => none
  | n + 1, dir => if isRoot t dir then some dir else nearestRoot? t n (Path.dir dir)

/-- The directory of the module that a directory belongs to. -/
def rootOf? (t : FileTree) (dir : Text) : Option Text :=
  nearestRoot? t ((Path.cleanComponents dir).length + 1) dir

/-- The module of a directory with a module file. -/
def ofRoot (t : FileTree) (root : Text) : Except ModuleFault Module :=
  match t.stat (Path.join [root, ModuleFile.fileName]) with
  | .ok (.file content) => (ModuleFile.parse content).map fun (path, version) => ⟨root, path, version.release⟩
  | _ => .error .unnamed

/-- The path of the package in a directory of the module. -/
def packagePath (m : Module) (dir : Text) : Text :=
  match Path.rel m.root dir with
  | some way => if way == utf8 "." then m.path else m.path ++ [Path.separator] ++ way
  | none => m.path

/-- A directory of the module may hold a package of it. -/
def hasPackage (m : Module) (dir : Text) : Bool :=
  ImportPath.isValid (m.packagePath dir) &&
    !(Path.rel m.root dir).any fun way =>
      Text.startsWith way (ImportPath.vendor ++ [Path.separator])

/-- The directory of a package of the module, if no other module lies between. -/
def packageDir? (m : Module) (t : FileTree) (path : Text) : Option Text :=
  if path == m.path then some m.root
  else if !ImportPath.isValid path then none
  else do
    let rest ← Text.stripLead? (m.path ++ [Path.separator]) path
    let dir := Path.join [m.root, rest]
    if rootOf? t dir == some m.root then return dir
    none

end Module

end CaseCover
