import CaseCover.Batch
import CaseCover.Engine
import CaseCover.Workspace.Load

/-!
# Running an engine on files

An engine runs on the package in a directory, or on the package of a file, of which then only the
issues in that file count. What packages a path stands for is up to a loader. The loader of an engine
finds them in the module that the path belongs to. With tests a directory gives up to four packages:
the package itself, the package with its inner tests, the package of its outer tests, and the program
that would run the tests. A package with faults is noted in the log and skipped.
-/

namespace CaseCover

/-- Why an engine cannot run on a path: it cannot be reached, or the module file is refused, whose name
is told as seen from the directory of the path. -/
inductive RunError where
  | access (path : Text) (cause : PathError)
  | load (path file : Text) (cause : ModuleFault)
deriving DecidableEq

/-- The message of the fault. -/
def RunError.message : RunError → Text
  | .access path cause => utf8 "error accessing " ++ path ++ utf8 ": " ++ cause.message
  | .load path file cause =>
    utf8 "error loading " ++ path ++ utf8 ": err: exit status 1: stderr: go: " ++ cause.message file ++
      utf8 "\n"

/-- A package that an engine runs on: its files, and the workspace that it is loaded from. The
program that runs the tests has no files of its own, but may have a fault. -/
structure RunTarget where
  workspace : Workspace
  package : PackageSpec

namespace RunTarget

/-- The paths of the files. -/
def fileNames (r : RunTarget) : List Text := r.package.sources.map (·.name)

/-! ## Programs that run tests -/

/-- The names of functions that a test program calls start with one of these. -/
def testLeads : List Text := ["Test", "Benchmark", "Fuzz"].map utf8

/-- A name starts with one of the leads and does not go on with a small letter. -/
def isTestName (name : Text) : Bool :=
  testLeads.any fun lead =>
    match Text.stripLead? lead name with
    | some [] => true
    | some rest => (Text.characters rest).head?.any fun c =>
      !Text.isLetterCode c.code || Text.isCapitalCode c.code
    | none => false

/-- A test file declares a function that a test program would call. None can be called, because the
types for that are out of reach. -/
def callsTests (f : SourceFile) : Bool :=
  f.decls.any fun d =>
    match d with
    | .func fd => fd.receiver.isNone && isTestName fd.name.name
    | _ => false

/-- The program that would run the tests of a folder. It cannot be made if a test file cannot be
read or has tests to call. -/
def testProgram (path : Text) (f : Folder) : PackageSpec :=
  let (r, _) := ReadPackage.read FileSet.empty (f.innerTests ++ f.outerTests)
  ⟨path ++ utf8 ".test", utf8 "main", LanguageVersion.current.release, [], [], false,
   !r.sound || r.files.any callsTests⟩

/-! ## Targets -/

/-- The packages of a folder. -/
def ofFolder (t : FileTree) (m : Module) (release : Constraint.Release) (tests whole : Bool)
    (path : Text) (f : Folder) : List RunTarget :=
  let plain : Workspace := ⟨f.dir, t, m, [], [], []⟩
  let inner := .withTests release path f
  let hasInner := !f.innerTests.isEmpty || f.name == utf8 "main"
  let testing : Workspace :=
    { plain with standIns := if hasInner then [inner] else [], exact := if whole then [path] else [] }
  ⟨plain, .ofFolder release path f⟩ ::
    if !tests || (f.innerTests.isEmpty && f.outerTests.isEmpty) then []
    else
      [⟨plain, testProgram path f⟩] ++
      (if hasInner then [⟨plain, inner⟩] else []) ++
      (if f.outerTests.isEmpty then [] else [⟨testing, .outerTests release path f⟩])

/-- Packages that are loaded at the same time. What one of them imports directly is known to all. -/
def together (rs : List RunTarget) : List RunTarget :=
  let direct := rs.flatMap fun r => r.package.importPaths
  rs.map fun r => { r with workspace := { r.workspace with direct := direct } }

/-- The packages of a directory of a module. A directory that can hold none gives a package with a
fault. -/
def ofDir (t : FileTree) (m : Module) (tests : Bool) (dir : Text) : List RunTarget :=
  let f := if m.hasPackage dir then Folder.ofDir t dir else { Folder.empty dir with fault := true }
  together (ofFolder t m m.release tests true (m.packagePath dir) f)

/-- The path of the package of a file that stands by itself. -/
def loosePath : Text := "command-line-arguments"

/-- The packages that a file belongs to. Where a directory can hold no package or has no source files
for the target, a file stands by itself. -/
def containing (t : FileTree) (m : Module) (tests : Bool) (file : Text) : List RunTarget :=
  let dir := Path.dir file
  let f := Folder.ofDir t dir
  let all :=
    if m.hasPackage dir && !f.isEmpty then ofFolder t m m.release tests false (m.packagePath dir) f
    else
      ofFolder t m LanguageVersion.current.release tests false loosePath (Folder.ofFile t file)
  together (all.filter fun r => r.fileNames.contains file)

/-- The path under which the package is noted: what follows a space is left out. -/
def notedPath (r : RunTarget) : Text := r.package.path.takeWhile (· ≠ 0x20)

end RunTarget

/-! ## Loaders -/

/-- What loading gives for a package: the path under which it is noted, and the checked package
unless it has a fault. -/
structure LoadedPackage where
  notedPath : Text
  sound? : Option Workspace.Sound

/-- Loads the package. -/
def RunTarget.load (r : RunTarget) : LoadedPackage := ⟨r.notedPath, r.workspace.load? r.package⟩

/-- A loader gives the packages that a path stands for, which is that of a directory or of a file; or
it refuses the module file, with its name as seen from the directory of the path. -/
def Loader := FileTree → Text → Bool → Except (Text × ModuleFault) (List LoadedPackage)

namespace Engine

/-- The issues of a package, or the note that it is skipped. -/
def lintLoaded (e : Engine) (p : LoadedPackage) : Except Log (List Issue) :=
  match p.sound? with
  | some s => .ok (e.issuesOf s.files.place s.checked.shapes s.sources)
  | none => .error ⟨.warn, "Skipping package with errors", .package p.notedPath⟩

/-- The packages that a path stands for. -/
def targets (e : Engine) (t : FileTree) (path : Text) (isDir : Bool) :
    Except (Text × ModuleFault) (List RunTarget) :=
  let dir := if isDir then path else Path.dir path
  match Module.rootOf? t dir with
  | none => .ok []
  | some root =>
    match Module.ofRoot t root with
    | .ok m =>
      .ok (if isDir then RunTarget.ofDir t m e.tests path else RunTarget.containing t m e.tests path)
    | .error cause =>
      let file := Path.join [root, ModuleFile.fileName]
      .error ((Path.rel dir file).getD file, cause)

/-- The loader of the engine. -/
def loader (e : Engine) : Loader := fun t path isDir =>
  (e.targets t path isDir).map fun rs => rs.map RunTarget.load

/-- Runs the engine on a path with a loader. -/
def lintWith (e : Engine) (load : Loader) (t : FileTree) (path : Text) :
    Except RunError (List Issue) × List Log :=
  let full := Path.absolute t.cwd path
  match t.stat full with
  | .error cause => (.error (.access path cause), [])
  | .ok n =>
    match load t full n.isDir with
    | .error (file, cause) => (.error (.load path file cause), [])
    | .ok packages =>
      let results := packages.map e.lintLoaded
      let found := results.flatMap fun r => match r with | .ok is => is | .error _ => []
      let skipped := results.filterMap fun r => match r with | .ok _ => none | .error l => some l
      (.ok (Issue.distinct (if n.isDir then found else Issue.inFile t full found)), skipped)

/-- Runs the engine on a path. -/
def lint (e : Engine) (t : FileTree) (path : Text) : Except RunError (List Issue) × List Log :=
  e.lintWith e.loader t path

/-- Runs the engine on paths one after the other. -/
def lintAll (e : Engine) (t : FileTree) (paths : List Text) :
    List (Except RunError (List Issue)) × List Log :=
  let results := paths.map (e.lint t)
  (results.map (·.1), results.flatMap (·.2))

/-- The engine as a linter that collects log entries. -/
def linter (e : Engine) (t : FileTree) (stopped : Option Text) : Linter (List Log) where
  run := fun path logs =>
    let (r, more) := e.lint t path
    (r.mapError RunError.message, logs ++ more)
  stopped := fun _ => stopped

end Engine

end CaseCover
