import CaseCover.Typing.Package

/-!
# Outlines of faulty packages

A package with faults still lends its sound declarations to the packages that import it. Its
outline has the names whose declarations can be read by themselves; the bodies of functions do not
matter, and a name with a faulty declaration is left out.
-/

namespace CaseCover

namespace Check

/-- The result of a check, or nothing if it fails; a failed check leaves no trace. -/
def attempt {α : Type} (x : Check α) : Check (Option α) := fun s =>
  match x s with
  | .ok (a, s) => .ok (some a, s)
  | .error _ => .ok (none, s)

/-- The names that the sound imports of a file bring into it. -/
def soundImports (packages : List Package) (f : SourceFile) : Check (List Imported) := do
  let specs := f.decls.flatMap fun d =>
    match d with
    | .group _ .imports specs _ => specs
    | _ => []
  let names ← specs.mapM fun s => do
    match s with
    | .importing name _ path => return (← attempt (importNames packages name path)).getD []
    | _ => return []
  return names.flatten

/-- What the sound parts of files declare and import. -/
def soundHome (path name : Text) (release : Option Constraint.Release) (packages : List Package)
    (files : List SourceFile) : Check Home := do
  let imports ← files.mapM (soundImports packages)
  let objects ← files.zipIdx.foldlM (fun (acc : List PackageObject) (f, i) =>
    f.decls.foldlM (fun acc d => do
      return acc ++ ((← attempt (declObjects name i acc.length d)).getD [])) acc) []
  let methods ← files.zipIdx.mapM fun (f, i) => do
    return (← attempt (fileMethods objects i f)).getD []
  return ⟨path, name, objects, methods.flatten, imports, files.map (fileRelease release), packages⟩

/-- A name of the package, if its declaration is sound. A variable with a declared type is what the
type says even if its initial value is not sound. -/
def soundObject (r : TypingRules) (home : Home) (o : PackageObject) (i : Nat) :
    Check (Option Entity) := do
  let env := Env.top home o.file none
  match ← attempt (r.object env false i) with
  | some e => return some e
  | none =>
    match o.decl with
    | .var type .. =>
      if type.isAbsent then return none
      return (← attempt (varType r env type)).map .global
    | _ => return none

/-- The outline of a package. -/
def outline (path name : Text) (release : Option Constraint.Release) (packages : List Package)
    (files : List SourceFile) : Check Package := do
  let home ← soundHome path name release packages (files.filter fun f => f.name.name == name)
  let r := rules (depthBound files)
  for isAlias in [false, true] do
    for (o, i) in home.objects.zipIdx do
      if PackageObject.definesType o isAlias then
        let _ ← attempt (r.object (Env.top home o.file none) false i)
  for (_, j) in home.methods.zipIdx do
    let _ ← attempt (r.method home j)
  let scope ← home.objects.zipIdx.filterMapM fun (o, i) => do
    if o.visible then return (← soundObject r home o i).map fun e => (⟨o.id.name, o.id.pos, e⟩ : Declared)
    return none
  return ⟨path, name, scope⟩

end Check

/-- The world with the outline of a package. -/
def World.outline (w : World) (path name : Text) (release : Option Constraint.Release)
    (files : List SourceFile) : World :=
  match (Check.outline path name release w.packages files).run (.start w.table w.next) with
  | .ok (p, s) => ⟨s.table, w.packages ++ [p], s.next⟩
  | .error _ => { w with packages := w.packages ++ [⟨path, name, []⟩] }

end CaseCover
