import CaseCover.FileTree.Walk
import CaseCover.Source.Parse.Grammar
import CaseCover.Workspace.ImportPath
import CaseCover.Workspace.Target

/-!
# Package folders

The source files of a directory make up a package, the tests inside the package, and the tests
outside of it, whose package has the same name with `_test` at its end. Files with a hidden name, of
another target or of the package `documentation` are left out, and so are files that import the
package `C`, which stands for code in another language; no test may do that. All files have to
agree on the name of the package, which the first one gives.

Files in most other languages are left out too, but those in Fortran refuse the directory; files in
assembly and objects may hold the bodies of functions. The names of the files must differ by more than
the case of letters, and none may look like an option.
-/

namespace CaseCover

/-- A named text. -/
structure NamedSource where
  name : Text
  content : Text
deriving DecidableEq

/-- The source files of a directory. `names` has the names of all files that were looked at,
`assembly` the texts in assembly, `hasObjects` tells that there are objects, and `fault` that the files
do not make up a package. -/
structure Folder where
  dir : Text
  name : Text
  sources : List NamedSource
  innerTests : List NamedSource
  outerTests : List NamedSource
  names : List Text
  assembly : List Text
  hasObjects : Bool
  fault : Bool

namespace Folder

/-- The end of the names of test files. -/
def testEnd : Text := "_test.go"

/-- The end of the package name of outer tests. -/
def outerEnd : Text := "_test"

/-- The path of the package that stands for code in another language. -/
def foreignCode : Text := "C"

/-- A name that does not count. -/
def isHidden (name : Text) : Bool := Text.startsWith name "_" || Text.startsWith name "."

/-- The ends of the names of files that refuse a directory. -/
def refusedExts : List Text := [".f", ".F", ".for", ".f90"].map utf8

/-- The end of the names of files in assembly. -/
def assemblyExt : Text := ".s"

/-- The end of the names of objects. -/
def objectExt : Text := ".syso"

/-- The ends of the names of other files whose names count. -/
def otherExts : List Text :=
  [".c", ".cc", ".cpp", ".cxx", ".m", ".h", ".hh", ".hpp", ".hxx", ".swig", ".swigcxx"].map utf8

/-- The ends of the names of files that may belong to a package besides source files. -/
def auxiliaryExts : List Text := refusedExts ++ [assemblyExt, objectExt] ++ otherExts

/-- The folder without files. -/
def empty (dir : Text) : Folder := ⟨dir, [], [], [], [], [], [], false, false⟩

/-- The folder with one more file, if it is meant for a target with the tags that `holds` accepts. -/
def add (f : Folder) (holds : Constraint → Bool) (name content : Text) : Folder :=
  match Constraint.ofFile content with
  | none => { f with fault := true }
  | some constraints =>
    if !constraints.all holds then f
    else
      let header := SourceFile.header content
      let package := header.name.getD []
      if package == utf8 "documentation" then f
      else
        let isTest := Text.endsWith name testEnd
        let isOuter := isTest && Text.endsWith package outerEnd && f.name != package
        let base := if isOuter then package.take (package.length - outerEnd.length) else package
        let source : NamedSource := ⟨Path.join [f.dir, name], content⟩
        let f := { f with
          name := if f.name.isEmpty then base else f.name
          fault := f.fault || !header.sound || (!f.name.isEmpty && f.name != base) }
        if header.imports.contains foreignCode then { f with fault := f.fault || isTest }
        else if isOuter then { f with outerTests := f.outerTests ++ [source] }
        else if isTest then { f with innerTests := f.innerTests ++ [source] }
        else { f with sources := f.sources ++ [source] }

/-- The folder with one more file that is no source file, if it is meant for the target. -/
def addAuxiliary (f : Folder) (name content : Text) : Folder :=
  let ext := Path.ext name
  if !(Constraint.ofFile content).any fun cs => cs.all (Constraint.eval Target.hasTag) then f
  else
    { f with
      names := f.names ++ [name]
      assembly := if ext == assemblyExt then f.assembly ++ [content] else f.assembly
      hasObjects := f.hasObjects || ext == objectExt
      fault := f.fault || refusedExts.contains ext }

/-- The folder with one more directory entry. Links to files count as files. The name of a source
file counts even if the file is meant for another target. -/
def addEntry (t : FileTree) (f : Folder) (name : Text) : Folder :=
  let ext := Path.ext name
  if isHidden name then f
  else if ext == FileTree.sourceExt then
    match t.stat (Path.join [f.dir, name]) with
    | .ok (.file content) =>
      let f := { f with names := f.names ++ [name] }
      if Target.fitsName name then f.add (Constraint.eval Target.hasTag) name content else f
    | .ok _ => f
    | .error _ => { f with fault := f.fault || Target.fitsName name }
  else if auxiliaryExts.contains ext && Target.fitsName name then
    match t.stat (Path.join [f.dir, name]) with
    | .ok (.file content) => f.addAuxiliary name content
    | _ => f
  else f

/-- There is no source file. -/
def isEmpty (f : Folder) : Bool := f.sources.isEmpty && f.innerTests.isEmpty && f.outerTests.isEmpty

/-- Two names differ by case only, or a name may look like an option. -/
def hasOddNames (f : Folder) : Bool :=
  let folded := f.names.map Text.lowerAscii
  folded.eraseDups.length < folded.length || !f.names.all ImportPath.isPlainName

/-- The source files of a directory. -/
def ofDir (t : FileTree) (dir : Text) : Folder :=
  let names := match t.stat dir with
    | .ok n => FileTree.names n
    | .error _ => []
  let f := names.foldl (addEntry t) (empty dir)
  { f with fault := f.fault || f.isEmpty || f.hasOddNames }

/-- A source file that stands by itself. It may be meant for any target. -/
def ofFile (t : FileTree) (file : Text) : Folder :=
  let name := Path.base file
  let f := { empty (Path.dir file) with names := [name] }
  if isHidden name || !FileTree.isSourceName name then f
  else
    match t.content file with
    | .ok content =>
      let f := f.add (fun _ => true) name content
      { f with fault := f.fault || f.hasOddNames }
    | .error _ => f

end Folder

end CaseCover
