import CaseCover.Source.Constraint
import CaseCover.Typing.Member

/-!
# Relations between types

A type implements an interface, a value can be assigned to a variable of a type, a value can be
converted to a type. Some rules came into the language with a release, so the relations depend on the
release that a file is written in; where none is known, all rules hold.
-/

namespace CaseCover

/-- A rule that came with a release holds for a file of some release. -/
def allows (release : Option Constraint.Release) (since : Constraint.Release) : Bool :=
  match release with
  | some r => since ≤ r
  | none => true

namespace TypeTable

/-! ## Implementing -/

/-- The methods are in the method set of a type with types that `eq` accepts. Methods that an
interface lacks do not count where `partly`. A method whose declaration has not been read is taken to
fit. -/
def hasMethods (tb : TypeTable) (eq : Ty → Ty → Bool) (partly : Bool) (t : Ty)
    (ms : List (MemberName × Ty)) : Bool :=
  match tb.under t with
  | .interface .. =>
    let own := (tb.typeSet t).methods
    ms.all fun m =>
      match own.find? fun n => n.1 == m.1 with
      | some n => eq n.2 m.2
      | none => partly
  | _ => ms.all fun m =>
    match (tb.selectPlain? t false m.1).bind Selection.methodType? with
    | some (some u) => eq u m.2
    | some none => true
    | none => false

/-- A type implements an interface, or satisfies it as a constraint. -/
def implements (tb : TypeTable) (release : Option Constraint.Release) (asConstraint : Bool)
    (t iface : Ty) : Bool :=
  if !tb.isAbstract iface then false
  else
    let s := tb.typeSet iface
    let own := tb.typeSet t
    let abstract := tb.isAbstract t
    if s.isAll || (abstract && own.isEmpty) then true
    else
      let comparable := !tb.admitsComparable s || tb.isStrictlyComparable t ||
        (asConstraint && allows release 20 && tb.isComparable t)
      !s.isEmpty && tb.hasMethods tb.same false t s.methods && comparable &&
        (s.terms.isNone ||
          (if abstract then tb.listWithin own s
           else s.listed.any fun x => x.admits tb.under tb.same t))

/-- A type may be asserted of a value of an interface. -/
def assertable (tb : TypeTable) (iface t : Ty) : Bool :=
  tb.isAbstract t || tb.hasMethods tb.same true t (tb.typeSet iface).methods

/-! ## Assigning -/

/-- A typed value can be assigned to a variable of a type where no types that type parameters list
are considered. -/
def assignablePlain (tb : TypeTable) (release : Option Constraint.Release) (v t : Ty) : Bool :=
  tb.same v t ||
    (let vu := tb.under v
     let tu := tb.under t
     let unnamed := !v.hasName || !t.hasName
     (unnamed && !v.isParam && !t.isParam && tb.same vu tu) ||
       (tb.isInterface t && tb.implements release false v t) ||
       (match vu, tu with
        | .chan .both a, .chan _ b => unnamed && tb.same a b
        | _, _ => false))

/-- A typed value can be assigned to a variable of a type. A value of an unnamed type goes where it
goes to all types that a type parameter lists, and the other way round. -/
def assignable (tb : TypeTable) (release : Option Constraint.Release) (v t : Ty) : Bool :=
  let all := fun (ts : List Term) (p : Ty → Bool) => !ts.isEmpty && ts.all fun x => p x.type
  tb.assignablePlain release v t ||
    (!v.hasName && t.isParam && all (tb.termsOf t) (tb.assignablePlain release v)) ||
    (v.isParam && !t.hasName && all (tb.termsOf v) fun u => tb.assignablePlain release u t)

/-! ## Converting -/

/-- The type is a slice of bytes or of characters. -/
def isCharacters (tb : TypeTable) (t : Ty) : Bool :=
  match tb.under t with
  | .slice e => tb.is (fun b => b == .uint8 || b == .int32) e
  | _ => false

/-- A value of one type can be converted to another one where `assigns` tells whether it can be
assigned, and no types that type parameters list are considered. -/
def convertiblePlain (tb : TypeTable) (release : Option Constraint.Release) (assigns : Bool)
    (v t : Ty) : Bool :=
  let vu := tb.under v
  let tu := tb.under t
  let real := tb.is fun b => b.isInteger || b.isFloat
  let complex := tb.is Basic.isComplex
  let text := tb.is Basic.isString
  let raw := tb.is (· == .rawPointer)
  let address := fun u => tb.isPointer u || tb.is (· == .uintptr) u
  assigns || (!v.isParam && !t.isParam && tb.sameUntagged vu tu) ||
    (match v, t with
     | .pointer a, .pointer b =>
       !a.isParam && !b.isParam && tb.sameUntagged (tb.under a) (tb.under b)
     | _, _ => false) ||
    (real vu && real tu) || (complex vu && complex tu) ||
    (text tu && (tb.is Basic.isInteger vu || tb.isCharacters vu)) ||
    (text vu && tb.isCharacters tu) ||
    (raw tu && address vu) || (raw vu && address tu) ||
    (match vu, tu with
     | .slice a, .array _ b => tb.same a b && allows release 20
     | .slice a, .pointer p =>
       match tb.under p with
       | .array _ b => tb.same a b && allows release 17
       | _ => false
     | _, _ => false)

/-- A value can be converted. `assigns` tells whether a value of a type can be assigned to another
type. -/
def convertible (tb : TypeTable) (release : Option Constraint.Release) (assigns : Ty → Ty → Bool)
    (v t : Ty) : Bool :=
  let plain := fun v t => tb.convertiblePlain release (assigns v t) v t
  let choices := fun (t : Ty) => if t.isParam then (tb.termsOf t).map (·.type) else [t]
  plain v t ||
    ((v.isParam || t.isParam) &&
      (let vs := choices v
       let ts := choices t
       !vs.isEmpty && !ts.isEmpty && vs.all fun a => ts.all fun b => plain a b))

end TypeTable

end CaseCover
