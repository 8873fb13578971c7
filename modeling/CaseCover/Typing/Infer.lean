import CaseCover.Typing.Check

/-!
# Type arguments

The type arguments that a call of a generic function leaves out are found by matching the types of
the parameters with the types of the arguments, and the types found with the constraints. An untyped
constant decides only when nothing else does. What is found may mention other parameters, as long as
it does not mention itself.
-/

namespace CaseCover

/-- How two types are matched: those of an assignment may differ as assignments allow, but not in
their parts; exact ones not at all. -/
structure Matching where
  assigns : Bool
  exact : Bool

namespace Matching

/-- How the parts of matched types are matched. -/
def parts (m : Matching) : Matching := { m with exact := m.exact || m.assigns }

/-- Types of an assignment. -/
def assignment : Matching := ⟨true, false⟩

/-- Types that must be the same. -/
def strict : Matching := ⟨false, true⟩

/-- Types that may differ in name and direction, in all their parts. -/
def loose : Matching := ⟨false, false⟩

end Matching

/-- Types found for type parameters. Parameters that must be replaced by the same type share a
class, which has a type as soon as one is found. -/
structure Unifier where
  classes : List (Nat × Nat)
  types : List (Nat × Ty)

namespace Unifier

/-- Why types cannot be matched. -/
inductive Fault where
  | mismatch
  | tooDeep

/-- Nothing is found but what is given. -/
def start (params : List Nat) (given : List (Option Ty)) : Unifier :=
  ⟨params.map fun i => (i, i),
   (params.zip given).filterMap fun (i, t) => t.map fun t => (i, t)⟩

/-- The class of a parameter. -/
def class? (u : Unifier) (i : Nat) : Option Nat := u.classes.lookup i

/-- The class of a type that is one of the parameters. -/
def classOf? (u : Unifier) : Ty → Option Nat
  | .param i _ => u.class? i
  | _ => none

/-- The type found for a class. -/
def at? (u : Unifier) (c : Nat) : Option Ty := u.types.lookup c

/-- The type found for a parameter. -/
def found? (u : Unifier) (i : Nat) : Option Ty := (u.class? i).bind u.at?

/-- A type is found for a class. -/
def set (u : Unifier) (c : Nat) (t : Ty) : Unifier :=
  { u with types := (c, t) :: u.types.filter fun e => e.1 != c }

/-- One class for two, if not both have a type. -/
def join? (u : Unifier) (c d : Nat) : Option Unifier :=
  let move := fun (a b : Nat) =>
    { u with classes := u.classes.map fun e => if e.2 == a then (e.1, b) else e }
  if c == d then some u
  else
    match u.at? c, u.at? d with
    | some _, some _ => none
    | some _, none => some (move d c)
    | none, _ => some (move c d)

/-- How many parameters have no type yet. -/
def unknown (u : Unifier) : Nat := (u.classes.filter fun e => (u.at? e.2).isNone).length

/-- Of two matching types, the type found and a new one, the one to keep: a declared type before
others, a channel with a direction before one without. Interfaces must not leave a choice. -/
def prefer (tb : TypeTable) (m : Matching) (u : Unifier) (c : Nat) (x y : Ty) : Except Fault Unifier :=
  let keep :=
    if m.exact || x.isNamed then u
    else if y.isNamed then u.set c y
    else
      match tb.under y with
      | .chan .send _ | .chan .receive _ => u.set c y
      | _ => u
  match tb.isInterface x, tb.isInterface y with
  | true, true =>
    if x.isNamed && y.isNamed then if tb.same x y then .ok u else .error .mismatch
    else if (tb.typeSet x).methods.length == (tb.typeSet y).methods.length then .ok keep
    else .error .mismatch
  | false, false => .ok keep
  | _, _ => .error .mismatch

/-- A way to match two types further inside. -/
abbrev Step := Matching → List (Ty × Ty) → Unifier → Ty → Ty → Except Fault Unifier

/-- Two interfaces are being matched already. -/
def isOpen (pairs : List (Ty × Ty)) (x y : Ty) : Bool :=
  pairs.any fun p => (p.1.same x && p.2.same y) || (p.1.same y && p.2.same x)

/-- Two interfaces list the same types. -/
def sameTerms (tb : TypeTable) (s t : TypeSet) : Bool :=
  s.comparable == t.comparable && Term.sameLists tb.under tb.same s.terms t.terms

/-- Matches methods with those of the same name among others. -/
def unifyNamed (step : Ty → Ty → Unifier → Except Fault Unifier) (others : List (MemberName × Ty)) :
    Unifier → List (MemberName × Ty) → Except Fault Unifier :=
  List.foldlM fun u f =>
    match others.find? fun g => g.1 == f.1 with
    | some g => step f.2 g.2 u
    | none => .error .mismatch

/-- Matches two types of which one or both are interfaces: the methods of one are among those of the
other one. -/
def unifyMethods (tb : TypeTable) (inside : Step) (pairs : List (Ty × Ty)) (u : Unifier) (x y : Ty) :
    Except Fault Unifier :=
  if tb.isInterface x && tb.isInterface y then
    let s := tb.typeSet x
    let t := tb.typeSet y
    if !sameTerms tb s t then .error .mismatch
    else if isOpen pairs x y then .ok u
    else
      let step := fun a b u => inside .strict [] u a b
      if s.methods.length ≤ t.methods.length then unifyNamed step t.methods u s.methods
      else unifyNamed step s.methods u t.methods
  else
    let (x, y) := if tb.isInterface x then (x, y) else (y, x)
    (tb.typeSet x).methods.foldlM (fun u f =>
      match (tb.select? y false f.1).bind Selection.methodType? with
      | some (some t) => inside .strict pairs u f.2 t
      | some none => .ok u
      | none => .error .mismatch) u

/-- Matches two types part by part; `deeper` is for the lists of a function type. A type parameter
that is not to be replaced matches what its only underlying type matches. -/
def unifyParts (tb : TypeTable) (inside deeper : Step) (m : Matching) (pairs : List (Ty × Ty))
    (u : Unifier) (x y : Ty) : Except Fault Unifier :=
  let go := fun (u : Unifier) (a b : Ty) => inside m.parts pairs u a b
  match x, y with
  | .basic a, .basic b => if a == b then .ok u else .error .mismatch
  | .pointer a, .pointer b => go u a b
  | .slice a, .slice b => go u a b
  | .array n a, .array l b => if n == l then go u a b else .error .mismatch
  | .mapping a c, .mapping b d => do go (← go u a b) c d
  | .chan d a, .chan e b => if !m.exact || d == e then go u a b else .error .mismatch
  | .struct fs as, .struct gs bs =>
    if fs == gs then (as.zip bs).foldlM (fun u (a, b) => go u a b) u else .error .mismatch
  | .func ps rs v, .func qs ss w =>
    if v != w || ps.length != qs.length || rs.length != ss.length then .error .mismatch
    else ((ps ++ rs).zip (qs ++ ss)).foldlM (fun u (a, b) => deeper m.parts pairs u a b) u
  | .interface .., .interface .. =>
    let s := tb.typeSet x
    let t := tb.typeSet y
    if s.methods.length != t.methods.length || !sameTerms tb s t then .error .mismatch
    else if isOpen pairs x y then .ok u
    else unifyNamed (fun a b u => inside .strict ((x, y) :: pairs) u a b) t.methods u s.methods
  | .named n as, .named l bs =>
    if n == l && as.length == bs.length then
      (as.zip bs).foldlM (fun u (a, b) => inside m pairs u a b) u
    else .error .mismatch
  | .param .., y =>
    match tb.core x with
    | some c => inside .assignment pairs u c y
    | none => .error .mismatch
  | _, _ => .error .mismatch

/-- Matches two types, going at most so deep. `byMethods` lets interfaces match by their methods;
`pairs` are the pairs of interfaces that are being matched. -/
def unify (tb : TypeTable) (byMethods : Bool) : Nat → Step
  | 0, _, _, u, x, y => if x.same y then .ok u else .error .tooDeep
  | k + 1, m, pairs, u, x, y =>
    let inside : Step := fun m ps u a b => unify tb byMethods k m ps u a b
    let deeper : Step := fun m ps u a b =>
      match k with
      | 0 => if a.same b then .ok u else .error .tooDeep
      | j + 1 => unify tb byMethods j m ps u a b
    if x.same y then .ok u
    else
      let (x, y) := if x.isNamed || (u.classOf? y).isSome then (y, x) else (x, y)
      let opens := !m.exact && y.isNamed && x.isLiteral && !(byMethods && tb.isAbstract x)
      let y := if opens then tb.under y else y
      if x.same y then .ok u
      else
        match u.classOf? x, u.classOf? y with
        | some c, some d =>
          match u.join? c d, u.at? c, u.at? d with
          | some u, _, _ => .ok u
          | none, some x, some y => inside m pairs u x y
          | _, _, _ => .error .mismatch
        | some c, none =>
          match u.at? c with
          | some x => do prefer tb m (← inside m pairs u x y) c x y
          | none => .ok (u.set c y)
        | _, _ =>
          let abstract := tb.isInterface x || tb.isInterface y
          if byMethods && !m.exact && abstract then
            unifyMethods tb inside pairs u x y
          else if y.isParam then unifyParts tb inside deeper m pairs u y x
          else unifyParts tb inside deeper m pairs u x y

/-- How deep types are matched. -/
def depth : Nat := 50

/-! ## Steps -/

/-- Matches the types of parameters with those of typed arguments, where one of them is open. -/
def fromArguments (tb : TypeTable) (byMethods : Bool) (params : List Nat) (u : Unifier)
    (pairs : List (Ty × Operand)) : Except Fault Unifier :=
  pairs.foldlM (fun u (p, x) =>
    if x.type.isUntyped || !(p.mentions params || x.type.mentions params) then .ok u
    else unify tb byMethods depth .assignment [] u p x.type) u

/-- The only underlying type of a type parameter's types, whether types that it underlies count, and
whether it is the only type listed. -/
def coreTerm? (tb : TypeTable) (i : Nat) : Option (Term × Bool) :=
  match tb.termsOf (.param i []) with
  | [t] => some (t, true)
  | ts => (tb.core (.param i [])).map fun c => (⟨ts.any (·.tilde), c⟩, false)

/-- Matches what is found for a parameter with its constraint, or takes it from there. -/
def fromConstraint (tb : TypeTable) (byMethods : Bool) (u : Unifier) (i : Nat) :
    Except Fault Unifier :=
  match coreTerm? tb i, u.found? i with
  | some (t, single), none =>
    if single && !t.tilde then .ok (((u.class? i).map fun c => u.set c t.type).getD u) else .ok u
  | some (t, _), some x => unify tb byMethods depth .loose [] u x t.type
  | none, some x =>
    let methods := (tb.typeSet (.param i [])).methods
    let own := fun name =>
      match tb.under x with
      | .interface .. => ((tb.typeSet x).methods.find? fun m => m.1 == name).map fun m => some m.2
      | _ => (tb.selectPlain? x false name).bind Selection.methodType?
    methods.foldlM (fun u m =>
      match own m.1 with
      | some (some t) => unify tb byMethods depth .strict [] u t m.2
      | some none => .ok u
      | none => .error .mismatch) u
  | none, none => .ok u

/-- Matches with the constraints as long as that finds something new, in at most so many rounds. -/
def fromConstraints (tb : TypeTable) (byMethods : Bool) (params : List Nat) :
    Nat → Unifier → Except Fault Unifier
  | 0, u => .ok u
  | n + 1, u => do
    let v ← params.foldlM (fromConstraint tb byMethods) u
    if v.unknown == u.unknown then return v
    fromConstraints tb byMethods params n v

/-- The untyped type that holds all untyped arguments of each parameter that is still open. -/
def untypedTypes (u : Unifier) (params : List Nat) (pairs : List (Ty × Operand)) :
    Except Fault (List (Nat × Basic)) :=
  pairs.foldlM (fun acc (p, x) =>
    match p, x.type with
    | .param i _, .basic b =>
      if !params.contains i || !b.isUntyped || x.isNil || (u.found? i).isSome then .ok acc
      else
        match acc.lookup i with
        | none => .ok ((i, b) :: acc)
        | some c =>
          match c.join b with
          | some j => .ok ((i, j) :: acc.filter fun e => e.1 != i)
          | none => .error .mismatch
    | _, _ => .ok acc) []

/-- A parameter that is replaced by something that mentions it, directly or through others. -/
def hasCycle (params : List Nat) (found : List (Nat × Ty)) : Bool :=
  let next := fun (is : List Nat) =>
    (is ++ is.flatMap fun i => ((found.lookup i).map Ty.paramsIn).getD []).eraseDups
  params.any fun i =>
    let direct := ((found.lookup i).map Ty.paramsIn).getD []
    ((List.range params.length).foldl (fun is _ => next is) direct).contains i

/-- The type arguments of a call: those given, and those that arguments and constraints decide. -/
def infer (tb : TypeTable) (byMethods : Bool) (params : List Nat) (given : List (Option Ty))
    (pairs : List (Ty × Operand)) : Except Fault (List Ty) := do
  let known := (params.zip given).filterMap fun (i, t) => t.map fun t => (i, t)
  if known.length == params.length then return known.map (·.2)
  let pairs := pairs.map fun (p, x) => (p.subst known, x)
  let u ← fromArguments tb byMethods params (start params given) pairs
  let u ← fromConstraints tb byMethods params (params.length + 1) u
  let u := (← untypedTypes u params pairs).foldl (fun u (i, b) =>
    ((u.class? i).map fun c => u.set c (.basic b.settled)).getD u) u
  let found := params.filterMap fun i => (u.found? i).map fun t => (i, t)
  if found.length != params.length || hasCycle params found then throw .mismatch
  let closed := params.foldl (fun (ts : List Ty) _ => ts.map (Ty.subst found)) (found.map (·.2))
  if closed.any (Ty.mentions params) then throw .mismatch
  return closed

end Unifier

end CaseCover
