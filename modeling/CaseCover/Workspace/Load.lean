import CaseCover.Analysis
import CaseCover.Typing.Outline
import CaseCover.Workspace.Assembly
import CaseCover.Workspace.Folder
import CaseCover.Workspace.Module

/-!
# Loading packages

To check a package, the packages that it imports are loaded first, and so on. A package is *built*
when it and all that it imports are free of faults. What a built package declares is known by file
and line only. A package that cannot be built lends its outline, with exact positions. The faults of
an imported package are not those of the package that imports it, unless it misses something.

Building a package also judges its release, its assembly and whether its functions have bodies. What
imports a package that cannot be built is not built, so none of this is judged there.

Only packages that are imported directly are known with all their names. Of those behind them only
the types are known that the direct ones make use of.
-/

namespace CaseCover

/-- A package to be loaded, with the release of the language that it is written in. `assembly` has its
texts in assembly, `openBodies` tells that functions may have their bodies elsewhere, `fault` that
something is wrong with the package beyond its files. -/
structure PackageSpec where
  path : Text
  name : Text
  release : Constraint.Release
  sources : List NamedSource
  assembly : List Text
  openBodies : Bool
  fault : Bool

namespace PackageSpec

/-- The package of a folder. -/
def ofFolder (release : Constraint.Release) (path : Text) (f : Folder) : PackageSpec :=
  ⟨path, f.name, release, f.sources, f.assembly, f.hasObjects || !f.assembly.isEmpty,
   f.fault || !ImportPath.isPlainName (Path.base path)⟩

/-- The package of a folder together with its inner tests. -/
def withTests (release : Constraint.Release) (path : Text) (f : Folder) : PackageSpec :=
  { ofFolder release path f with sources := f.sources ++ f.innerTests, fault := false }

/-- The package of the outer tests of a folder. -/
def outerTests (release : Constraint.Release) (path : Text) (f : Folder) : PackageSpec :=
  ⟨path ++ Folder.outerEnd, f.name ++ Folder.outerEnd, release, f.outerTests, [], false, false⟩

/-- The paths that the files of a package import, as far as their beginnings can be read. -/
def importPaths (p : PackageSpec) : List Text :=
  p.sources.flatMap fun s => (SourceFile.header s.content).imports

end PackageSpec

/-- Where packages are found: the directory from which they are loaded, the files, the module, packages
that stand in for those with the same path, the paths of packages whose positions are exact, and the
paths of packages that others imported directly which are loaded at the same time. -/
structure Workspace where
  dir : Text
  tree : FileTree
  module : Module
  standIns : List PackageSpec
  exact : List Text
  direct : List Text

/-- What has been loaded: the files, the checked packages, which packages have been loaded and
whether they are built, the packages that import themselves by way of others, and what packages that
are not built import. -/
structure Loading where
  files : FileSet
  world : World
  loaded : List (Text × Bool)
  circular : List Text
  direct : List Text

namespace Loading

/-- Nothing is loaded. -/
def empty : Loading := ⟨FileSet.empty, World.initial, [], [], []⟩

/-- A package is loaded and built. The package for raw memory always is. -/
def isBuilt (l : Loading) (path : Text) : Bool :=
  path == utf8 "unsafe" || l.loaded.lookup path == some true

end Loading

/-- A read package: its files as far as they could be read, and whether all of them could be. -/
structure ReadPackage where
  files : List SourceFile
  sound : Bool

/-- The paths that a file imports. -/
def SourceFile.importPaths (f : SourceFile) : List Text :=
  f.decls.flatMap fun d =>
    match d with
    | .group _ .imports specs _ => specs.filterMap fun s =>
      match s with
      | .importing _ _ path => Const.stringLiteral path
      | _ => none
    | _ => []

/-- Every function of a file has a body. -/
def SourceFile.hasBodies (f : SourceFile) : Bool :=
  f.decls.all fun d =>
    match d with
    | .func fd => !fd.body.isAbsent
    | _ => true

namespace ReadPackage

/-- Reads sources. -/
def read (files : FileSet) : List NamedSource → ReadPackage × FileSet
  | [] => (⟨[], true⟩, files)
  | s :: rest =>
    match SourceFile.parse files s.name s.content with
    | .ok (f, files) =>
      let (p, files) := read files rest
      (⟨f :: p.files, p.sound⟩, files)
    | .error _ =>
      let (f, files) := SourceFile.parseLeading files s.name s.content
      let (p, files) := read files rest
      (⟨f.toList ++ p.files, false⟩, files)

/-- The paths that a package imports. -/
def imports (p : ReadPackage) : List Text := (p.files.flatMap SourceFile.importPaths).eraseDups

end ReadPackage

/-! ## Lines only -/

namespace FileSet

/-- The files with one more of which only the lines are known: each line has one position. -/
def addLines (s : FileSet) (name : Text) (lines : Nat) : FileSet :=
  ⟨s.files ++ [⟨name, s.nextBase, lines, List.range lines, []⟩]⟩

end FileSet

namespace Package

/-- The declaration of a name. -/
def declared? (p : Package) (name : Text) : Option Declared := p.scope.find? fun d => d.name == name

/-- The declared types of the package that an entity mentions first: its own type. -/
def typesOf (p : Package) : Entity → List Text
  | .constant t _ | .global t | .type t | .function t _ =>
    t.namesIn.filterMap fun n => if n.home == some p.path then some n.name else none
  | _ => []

/-- The declarations in the order in which they are met: the exported ones by name, each followed by
the types that it mentions. -/
def meetingOrder (p : Package) : List Declared :=
  let exported := p.scope.filter fun d => Text.isExported d.name
  let sorted := exported.mergeSort fun a b => Text.lessEq a.name b.name
  sorted.flatMap fun d => d :: (p.typesOf d.entity).filterMap p.declared?

/-- The package with positions that tell only file and line, and the files with these lines. The
files come in the order in which their declarations are met. -/
def byLines (p : Package) (dir : Text) (files : FileSet) : Package × FileSet :=
  let place := fun pos => files.lineIn dir pos
  let lines := (p.scope.filterMap fun d => (place d.pos).map (·.2)).foldl max 0
  let names := (p.meetingOrder.filterMap fun d => (place d.pos).map (·.1)).eraseDups
  let (bases, files) := names.foldl (fun (bases, files) name =>
    ((name, files.nextBase) :: bases, files.addLines name (lines + 1))) (([] : List (Text × Pos)), files)
  let scope := p.scope.map fun d =>
    match (place d.pos).bind fun (name, line) => (bases.lookup name).map fun b => b + (line - 1) with
    | some pos => { d with pos := pos }
    | none => d
  ({ p with scope := scope }, files)

end Package

/-! ## Loading -/

namespace Workspace

/-- A package may import another one: one that is no program, no copy, and not internal to others. -/
def mayImport (importer : Text) (d : PackageSpec) : Bool :=
  d.name != utf8 "main" && !ImportPath.isVendored d.path &&
    match ImportPath.internalHome? d.path with
    | some home => ImportPath.isWithin home importer
    | none => true

/-- The package with a path. A directory without source files holds none. -/
def find? (w : Workspace) (path : Text) : Option PackageSpec :=
  match w.standIns.find? fun p => p.path == path with
  | some p => some p
  | none => do
    let dir ← w.module.packageDir? w.tree path
    let f := Folder.ofDir w.tree dir
    if f.isEmpty then none
    return .ofFolder w.module.release path f

/-- What a package needs besides source files is there. -/
def isComplete (p : PackageSpec) (r : ReadPackage) : Bool :=
  (p.openBodies || r.files.all SourceFile.hasBodies) && p.assembly.all Assembly.isValid

/-- The files of a package agree with what is expected of it. -/
def isSound (w : Workspace) (p : PackageSpec) (r : ReadPackage) : Bool :=
  !p.fault && r.sound && r.files.all (fun f => f.name.name == p.name) &&
    r.imports.all fun i =>
      match w.find? i with
      | some d => mayImport p.path d
      | none => true

/-- Adds a package whose imports are loaded. -/
def settle (w : Workspace) (p : PackageSpec) (r : ReadPackage) (l : Loading) : Loading :=
  let checked := if w.isSound p r && isComplete p r && r.imports.all l.isBuilt then
      (l.world.check p.path (some p.release) r.files).toOption
    else none
  match checked with
  | none =>
    { l with
      world := l.world.outline p.path p.name none r.files
      loaded := (p.path, false) :: l.loaded
      direct := r.imports ++ l.direct }
  | some c =>
    let (package, files) :=
      if w.exact.contains p.path then (c.package, l.files) else c.package.byLines w.dir l.files
    { l with
      files := files
      world := { c.world with packages := l.world.packages ++ [package] }
      loaded := (p.path, true) :: l.loaded }

/-- Loads what a package imports and reads the package itself. `above` has the paths of the packages
that are being loaded, and the number bounds how many there may be. -/
def readWithImports (w : Workspace) : Nat → List Text → PackageSpec → Loading → ReadPackage × Loading
  | 0, _, _, l => (⟨[], false⟩, l)
  | fuel + 1, above, p, l =>
    let (r, files) := ReadPackage.read l.files p.sources
    let above := p.path :: above
    let l := r.imports.foldl (fun l i =>
      if above.contains i then { l with circular := i :: l.circular }
      else if (l.loaded.lookup i).isSome then l
      else
        match w.find? i with
        | none => l
        | some d =>
          let (r, l) := readWithImports w fuel above d l
          w.settle d r l) { l with files := files }
    (r, l)

/-- No more packages than files can be loaded inside each other. -/
def depth (w : Workspace) : Nat := (FileTree.filesBelow [] w.tree.root).length + 2

/-- A package that is free of faults, with its files. -/
structure Sound where
  checked : Checked
  sources : List SourceFile
  files : FileSet

/-- What is known of packages: of those that are not imported directly no names. -/
def seen (direct : List Text) (world : World) : World :=
  { world with packages := world.packages.map fun p =>
      if direct.contains p.path then p else { p with scope := [] } }

/-- Loads a package for its own sake: nothing if it has a fault. Its release and what it needs besides
source files are judged only if all that it imports is built. -/
def load? (w : Workspace) (p : PackageSpec) : Option Sound :=
  let (r, l) := w.readWithImports w.depth [] p Loading.empty
  let builds := r.imports.all l.isBuilt
  if !w.isSound p r || l.circular.contains p.path || (builds && !isComplete p r) then none
  else
    let world := seen (r.imports ++ l.direct ++ w.direct) l.world
    match world.check p.path (if builds then some p.release else none) r.files with
    | .ok c => some ⟨c, r.files, l.files⟩
    | .error _ => none

end Workspace

end CaseCover
