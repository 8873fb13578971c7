import CaseCover.Typing.Task

/-!
# Packages

A package is checked as a whole: its names are collected from all files, its types are read, then the
signatures of methods, then constants, variables and functions, then the bodies of functions and all
that was put off. At last no initial value depends on itself, no type grows without end, and all
imports and local variables have been used.
-/

namespace CaseCover

/-- What earlier packages have left: the declared types, the checked packages, and the next free
serial number. -/
structure World where
  table : TypeTable
  packages : List Package
  next : Nat

/-- Nothing checked yet. -/
def World.initial : World := ⟨TypeTable.initial, [], 2⟩

/-- A checked package with what is known about its expressions. -/
structure Checked where
  package : Package
  facts : List Fact
  world : World

namespace Check

/-! ## Circles -/

/-- What can be reached from some places, in at most so many steps. -/
def reach {α : Type} [BEq α] (edges : List (α × α)) : Nat → List α → List α
  | 0, seen => seen
  | k + 1, seen =>
    let next := (edges.filterMap fun (a, b) =>
      if seen.contains a && !seen.contains b then some b else none).eraseDups
    if next.isEmpty then seen else reach edges k (seen ++ next)

/-- The initial value of a declaration depends on itself. -/
def dependsOnItself (edges : List (Node × Node)) (n : Node) : Bool :=
  let direct := (edges.filterMap fun (a, b) => if a == n then some b else none).eraseDups
  (reach edges (edges.length + 1) direct).contains n

/-- Type parameters are replaced by types that contain themselves, so that there would be types
without end. The type parameters of receivers count as those of their type, and a type that depends
on the type parameters of the function around it grows with them. -/
def growsForever (decls : List TypeDecl) (canon : List (Nat × Nat)) (found : List Instantiation) :
    Bool :=
  let name := fun i => (canon.lookup i).getD i
  let steps := found.map (fun i => (⟨name i.source, name i.param, i.grows⟩ : Instantiation)) ++
    decls.flatMap fun d => d.ambient.map fun p => ⟨name p, d.name.serial, true⟩
  let edges := steps.map fun i => (i.source, i.param)
  steps.any fun i => i.grows && (reach edges (edges.length + 1) [i.param]).contains i.source

/-! ## The whole package -/

/-- How deep the rules may go for files that end at a position. -/
def depthBound (files : List SourceFile) : Nat :=
  4 * (files.foldl (fun acc f => acc + (f.stop - f.package)) 0) + 200

/-- Reads the declarations of a package: types first, other names of types after them, then methods,
then the rest. -/
def readAll (r : TypingRules) (home : Home) : Check Unit := do
  let objects := home.objects.zipIdx
  for isAlias in [false, true] do
    for (o, i) in objects do
      if PackageObject.definesType o isAlias then
        let _ ← r.object (Env.top home o.file none) false i
  for (_, j) in home.methods.zipIdx do
    r.method home j
  for (o, i) in objects do
    let _ ← r.object (Env.top home o.file none) false i

/-- The names that other packages can see. -/
def scopeOf (r : TypingRules) (home : Home) : Check (List Declared) :=
  home.objects.zipIdx.filterMapM fun (o, i) => do
    if o.visible then return some ⟨o.id.name, o.id.pos, ← r.object (Env.top home o.file none) false i⟩
    return none

/-- Checks a package. -/
def package (path : Text) (release : Option Constraint.Release) (packages : List Package)
    (files : List SourceFile) : Check Package := do
  let home ← home path release packages files
  let bound := depthBound files
  let r := rules bound
  readAll r home
  performAll r bound
  let s ← get
  for (o, i) in home.objects.zipIdx do
    require (!(PackageObject.hasValue o && dependsOnItself s.edges (.object i))) .cycle
  match s.pending.find? fun v => !s.used.contains v.2 with
  | some (name, _) => throw (.unused name)
  | none => pure ()
  require (!growsForever s.table.decls s.canon s.instantiations) .cycle
  return ⟨path, home.name, ← scopeOf r home⟩

end Check

/-- Checks the files of a package in a world. -/
def World.check (w : World) (path : Text) (release : Option Constraint.Release)
    (files : List SourceFile) : Except TypeFault Checked := do
  let (p, s) ← (Check.package path release w.packages files).run (.start w.table w.next)
  return ⟨p, s.facts, ⟨s.table, w.packages ++ [p], s.next⟩⟩

end CaseCover
