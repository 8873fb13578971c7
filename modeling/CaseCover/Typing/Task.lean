import CaseCover.Typing.Object

/-!
# What is judged last

Judgements that need all declarations: that declared types do not contain themselves, that type
arguments satisfy constraints, that interfaces, unions, embedded fields and receivers are well made.
Type arguments are noted, since types that grow with every use of themselves would have no end.
-/

namespace CaseCover

namespace TypeTable

/-! ## Types that contain themselves -/

/-- A type contains no declared type that contains it. `nest` are the types around it, innermost
first; a type parameter stands for the argument of the innermost one, seen from outside of it. `known`
are declared types that have been judged before; the result has those after the judgement. -/
def validWithin (tb : TypeTable) : Nat → List Nat → List Ty → Ty → Option (List Nat)
  | 0, _, _, _ => none
  | k + 1, known, nest, t =>
    let all := fun (ts : List Ty) =>
      ts.foldlM (fun known u => validWithin tb k known nest u) known
    match t with
    | .named n args =>
      if known.contains n.serial && args.isEmpty then some known
      else if nest.any fun u => tb.same u t then none
      else
        match tb.decl? n with
        | none => some known
        | some d =>
          match n.home, d.definition with
          | some _, some u => do
            let known ← validWithin tb k known (t :: nest) u
            return if args.isEmpty && d.params.isEmpty then n.serial :: known else known
          | _, _ => some known
    | .param i _ =>
      match nest with
      | .named n args :: outer =>
        match ((tb.decl? n).map fun d => d.params.zip args).bind (List.lookup i) with
        | some u => validWithin tb k known outer u
        | none => some known
      | _ => some known
    | .array _ e => validWithin tb k known nest e
    | .struct _ ts => all ts
    | .union _ ts => all ts
    | .interface _ _ es => all es
    | _ => some known

/-! ## Type arguments -/

/-- The constraint of a type parameter, as an interface. -/
def boundInterface (tb : TypeTable) (i : Nat) : Ty :=
  let b := tb.bound i
  if tb.isInterface b then b else .interface [] [] [b]

/-- Type arguments satisfy the constraints of type parameters. -/
def satisfies (tb : TypeTable) (release : Option Constraint.Release) (params : List Nat)
    (args : List Ty) : Bool :=
  let σ := params.zip args
  σ.all fun (p, a) => tb.implements release true a ((tb.boundInterface p).subst σ)

/-- The type parameters in a type, and the types in it that depend on some, by number; going at most
so deep. -/
def sourcesWithin (tb : TypeTable) : Nat → Ty → List Nat
  | 0, _ => []
  | k + 1, t =>
    match t with
    | .param i _ => [i]
    | .named n args =>
      let own := match tb.decl? n with
        | some d => if d.ambient.isEmpty then [] else [n.serial]
        | none => []
      own ++ args.flatMap (sourcesWithin tb k)
    | .pointer a | .slice a | .array _ a | .chan _ a => sourcesWithin tb k a
    | .mapping a b => sourcesWithin tb k a ++ sourcesWithin tb k b
    | .func ps rs _ => (ps ++ rs).flatMap (sourcesWithin tb k)
    | .struct _ ts => ts.flatMap (sourcesWithin tb k)
    | .interface .. => ((tb.typeSet t).methods.map (·.2)).flatMap (sourcesWithin tb k)
    | _ => []

/-- What is noted when a type parameter is replaced by a type. -/
def instantiationsOf (tb : TypeTable) (param : Nat) (t : Ty) : List Instantiation :=
  let whole := match t with
    | .param i _ => some i
    | .named n _ => some n.serial
    | _ => none
  (tb.sourcesWithin depth t).map fun i => ⟨i, param, whole != some i⟩

/-! ## Interfaces -/

/-- The most terms that a union may have when all are counted. -/
def maxListed : Nat := 100

/-- A type embedded in an interface adds methods to those before, which must agree with them. -/
def embeds (tb : TypeTable) (release : Option Constraint.Release) (methods : List (MemberName × Ty))
    (t : Ty) : Option (List (MemberName × Ty)) :=
  match tb.under t with
  | .interface .. =>
    (tb.typeSet t).methods.foldlM (fun methods m =>
      match methods.find? fun n => n.1 == m.1 with
      | none => some (methods ++ [m])
      | some n => if allows release 14 && tb.same n.2 m.2 then some methods else none) methods
  | _ =>
    if allows release 18 && (tb.typeSet t).listed.length ≤ maxListed then some methods else none

/-- An interface is well made: what it embeds agrees. -/
def isWellMade (tb : TypeTable) (release : Option Constraint.Release) : Ty → Bool
  | .interface ms ts es => (es.foldlM (tb.embeds release) (ms.zip ts)).isSome
  | _ => true

/-- A term can stand in a union after others: it names what it stands for, it is no interface with
methods or of comparable types, and it shares no type with another term. -/
def fitsUnion (tb : TypeTable) (before : List Term) (t : Term) : Bool :=
  let isInterface := tb.isInterface t.type
  if t.tilde && (isInterface || !tb.same (tb.under t.type) t.type) then false
  else if isInterface then
    let s := tb.typeSet t.type
    s.methods.isEmpty && !s.comparable
  else before.all fun u => tb.isInterface u.type || u.disjoint tb.under tb.same t

/-- The terms of a union go together. -/
def fitUnion (tb : TypeTable) (terms : List Term) : Bool :=
  terms.zipIdx.all fun (t, i) => tb.fitsUnion (terms.take i) t

/-! ## Fields and receivers -/

/-- A type can be embedded in a structure. -/
def isEmbeddable (tb : TypeTable) (t : Ty) : Bool :=
  let (base, isPointer) := t.deref
  !base.isParam &&
    (match tb.under base with
     | .pointer _ => false
     | .basic b => b ≠ .rawPointer
     | .interface .. => !isPointer
     | _ => true)

/-- Methods can be declared for a type in a package. `generic` tells that the receiver names type
parameters. -/
def isReceiver (tb : TypeTable) (home : Text) (generic : Bool) (t : Ty) : Bool :=
  match t.deref.1 with
  | .named n args =>
    (args.isEmpty || generic) && n.home == some home &&
      (match tb.under t.deref.1 with
       | .pointer _ | .interface .. => false
       | .basic b => b ≠ .rawPointer
       | _ => true)
  | _ => false

/-- No field of a type has the name of a method. -/
def namesDiffer (tb : TypeTable) (d : TypeDecl) : Bool :=
  match tb.under (.named d.name (d.params.map fun p => .param p [])) with
  | .struct fs _ => !fs.any fun f => d.methods.any fun m => m.member == f.member
  | _ => true

end TypeTable

namespace Check

/-- Notes that type parameters are replaced by types. -/
def noteArguments (params : List Nat) (args : List Ty) : Check Unit := do
  let tb ← table
  let found := (params.zip args).flatMap fun (p, a) => tb.instantiationsOf p a
  modify fun s => { s with instantiations := (found ++ s.instantiations).eraseDups }

/-- A type contains no declared type that contains it. -/
def valid (t : Ty) : Check Unit := do
  let s ← get
  match s.table.validWithin TypeTable.depth s.sound [] t with
  | some known => set { s with sound := known }
  | none => throw .cycle

/-- Carries out what was put off. -/
def perform (r : TypingRules) : Task → Check Unit
  | .body env s => functionBody r env s
  | .ordinary pos t => do require (!(← table).isConstraint t) (.badType pos)
  | .comparable pos t => do require ((← table).isComparable t) (.badType pos)
  | .embeddable pos t => do require ((← table).isEmbeddable t) (.badType pos)
  | .abstract pos release t => do require ((← table).isWellMade release t) (.badType pos)
  | .union pos terms => do require ((← table).fitUnion terms) (.badType pos)
  | .replaced pos release params args => do
    require ((← table).satisfies release params args) (.mismatch pos)
    noteArguments params args
  | .applied pos release name args => do
    let tb ← table
    match tb.decl? name with
    | none => throw (.badType pos)
    | some d =>
      require (d.params.length == args.length) (.badCount pos)
      require (tb.satisfies release d.params args) (.mismatch pos)
      noteArguments d.params args
      valid (.named name args)
  | .receiver pos home generic t => do
    require ((← table).isReceiver home generic t) (.badDecl pos)
  | .declared pos name => do
    let tb ← table
    match tb.decl? name with
    | none => throw (.badType pos)
    | some d =>
      valid (.named name [])
      require (tb.namesDiffer d) (.badDecl pos)

/-- Carries out all that was put off, also what is put off meanwhile, in at most so many rounds. -/
def performAll (r : TypingRules) : Nat → Check Unit
  | 0 => throw .tooDeep
  | n + 1 => do
    match (← get).tasks with
    | [] => pure ()
    | tasks =>
      modify fun s => { s with tasks := [] }
      for t in tasks.reverse do
        perform r t
      performAll r n

end Check

end CaseCover
