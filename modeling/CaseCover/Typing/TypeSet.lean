import CaseCover.Typing.Table

/-!
# Type sets

An interface admits a set of types: those with its methods, among the types it lists, and only
comparable ones if it says so. Two interfaces are the same type when they admit the same types, so
being the same (`TypeTable.same`), the type set of an interface (`TypeTable.typeSet`) and being
comparable (`TypeTable.isComparable`) are decided together.

Declared types may refer to each other in circles. The functions carry the pairs of interfaces that
are being compared, the names that are being opened, and the types that have been seen to be
comparable; a bound on the depth makes them total.
-/

namespace CaseCover

/-- One entry of a list of types: a type alone, or all types that it underlies. -/
structure Term where
  tilde : Bool
  type : Ty

/-- What an interface admits: types with the methods, among the terms (all types without a list),
and comparable ones only. -/
structure TypeSet where
  methods : List (MemberName × Ty)
  terms : Option (List Term)
  comparable : Bool

/-- The type set of all types. -/
def TypeSet.all : TypeSet := ⟨[], none, false⟩

namespace TypeSet

/-- No type is in the set. -/
def isEmpty (s : TypeSet) : Bool :=
  match s.terms with
  | some [] => true
  | _ => false

/-- The set is given by methods alone. -/
def isMethodSet (s : TypeSet) : Bool := s.terms.isNone && !s.comparable

/-- Every type is in the set. -/
def isAll (s : TypeSet) : Bool := s.isMethodSet && s.methods.isEmpty

/-- The terms, if there are any and not all types are meant. -/
def listed (s : TypeSet) : List Term := s.terms.getD []

end TypeSet

/-! ## Terms -/

namespace Term

variable (under : Ty → Ty) (eq : Ty → Ty → Bool)

/-- No type belongs to both terms. -/
def disjoint (x y : Term) : Bool :=
  !eq (if y.tilde then under x.type else x.type) (if x.tilde then under y.type else y.type)

/-- The term admits the type. -/
def admits (x : Term) (t : Ty) : Bool := eq x.type (if x.tilde then under t else t)

/-- All types of one term belong to another one. -/
def within (x y : Term) : Bool := !x.disjoint under eq y && (!x.tilde || y.tilde)

/-- The list with one more term, which is joined with the first one that it overlaps. -/
def insert (y : Term) : List Term → List Term
  | [] => [y]
  | x :: xs =>
    if x.disjoint under eq y then x :: insert y xs
    else (if x.tilde || !y.tilde then x else y) :: xs

/-- The list with overlapping terms joined. -/
def normal (ts : List Term) : List Term := ts.foldl (fun acc t => t.insert under eq acc) []

/-- The types of two lists; all types where one of them has no list. -/
def joinLists (xs ys : Option (List Term)) : Option (List Term) :=
  match xs, ys with
  | some xs, some ys => some (normal under eq (xs ++ ys))
  | _, _ => none

/-- The types that two lists have in common. -/
def meetLists (xs ys : Option (List Term)) : Option (List Term) :=
  match xs, ys with
  | none, ys => ys.map (normal under eq)
  | xs, none => xs.map (normal under eq)
  | some xs, some ys =>
    some (normal under eq (xs.flatMap fun x => ys.filterMap fun y =>
      if x.disjoint under eq y then none else some (if !x.tilde || y.tilde then x else y)))

/-- All types of one list belong to another one. -/
def listWithin (xs ys : Option (List Term)) : Bool :=
  match xs, ys with
  | _, none => true
  | none, some _ => false
  | some xs, some ys => xs.all fun x => ys.any fun y => x.within under eq y

/-- Two lists admit the same types. -/
def sameLists (xs ys : Option (List Term)) : Bool :=
  listWithin under eq xs ys && listWithin under eq ys xs

end Term

/-! ## Sets, sameness, comparing -/

/-- A field without its tag. -/
def FieldName.untagged (f : FieldName) : FieldName := { f with tag := [] }

namespace TypeTable

/-- How deep types are followed; more than any source can nest them. -/
def depth : Nat := 1000000

mutual

/-- Two types are the same, with or without regard to the tags of fields. `pairs` are the pairs of
interfaces that are being compared. -/
def sameWithin (tb : TypeTable) (tags : Bool) : Nat → List (Ty × Ty) → Ty → Ty → Bool
  | 0, _, _, _ => false
  | k + 1, pairs, a, b =>
    match a, b with
    | .basic x, .basic y => x == y
    | .named m as, .named n bs => m == n && sameAllWithin tb tags k pairs as bs
    | .param i _, .param j _ => i == j
    | .pointer x, .pointer y => sameWithin tb tags k pairs x y
    | .slice x, .slice y => sameWithin tb tags k pairs x y
    | .array m x, .array n y => m == n && sameWithin tb tags k pairs x y
    | .mapping x u, .mapping y v =>
      sameWithin tb tags k pairs x y && sameWithin tb tags k pairs u v
    | .chan d x, .chan e y => d == e && sameWithin tb tags k pairs x y
    | .func ps rs v, .func qs ss w =>
      v == w && sameAllWithin tb tags k pairs ps qs && sameAllWithin tb tags k pairs rs ss
    | .struct fs as, .struct gs bs =>
      (if tags then fs == gs else fs.map FieldName.untagged == gs.map FieldName.untagged) &&
        sameAllWithin tb tags k pairs as bs
    | .interface .., .interface .. =>
      pairs.any (fun p => (p.1.same a && p.2.same b) || (p.1.same b && p.2.same a)) ||
        (let s := typeSetWithin tb k [] a
         let t := typeSetWithin tb k [] b
         s.comparable == t.comparable &&
           Term.sameLists tb.under (fun x y => sameWithin tb true k [] x y) s.terms t.terms &&
           s.methods.length == t.methods.length &&
           s.methods.all fun m =>
             match t.methods.find? fun n => n.1 == m.1 with
             | some n => sameWithin tb tags k ((a, b) :: pairs) m.2 n.2
             | none => false)
    | .union us as, .union vs bs => us == vs && sameAllWithin tb tags k pairs as bs
    | .tuple as, .tuple bs => sameAllWithin tb tags k pairs as bs
    | _, _ => false

/-- Two lists of types are the same. -/
def sameAllWithin (tb : TypeTable) (tags : Bool) : Nat → List (Ty × Ty) → List Ty → List Ty → Bool
  | 0, _, _, _ => false
  | k + 1, pairs, as, bs =>
    as.length == bs.length && (as.zip bs).all fun (a, b) => sameWithin tb tags k pairs a b

/-- What a type admits as part of an interface. `opened` are the interfaces that are being opened. -/
def typeSetWithin (tb : TypeTable) : Nat → List Ty → Ty → TypeSet
  | 0, _, _ => .all
  | k + 1, opened, t =>
    if t.same Ty.comparable then { TypeSet.all with comparable := true }
    else if t.isNamed && opened.any fun u => u.same t then .all
    else
      match tb.under t with
      | .interface ms ts es =>
        let opened := if t.isNamed then t :: opened else opened
        es.foldl (fun acc e => meetWithin tb k acc (typeSetWithin tb k opened e))
          { TypeSet.all with methods := ms.zip ts }
      | .union tildes ts =>
        let eq := fun x y => sameWithin tb true k [] x y
        let part := fun (x : Term) =>
          match tb.under x.type with
          | .interface .. => (typeSetWithin tb k opened x.type).terms
          | u => some (if x.tilde && !eq x.type u then [] else [x])
        { TypeSet.all with
          terms := (tildes.zip ts).foldl (fun acc (tilde, u) =>
            Term.joinLists tb.under eq acc (part ⟨tilde, u⟩)) (some []) }
      | .basic .invalid => .all
      | _ => { TypeSet.all with terms := some [⟨false, t⟩] }

/-- What two type sets have in common. Of listed types only the comparable ones stay when one of the
sets asks for it. -/
def meetWithin (tb : TypeTable) : Nat → TypeSet → TypeSet → TypeSet
  | 0, a, _ => a
  | k + 1, a, b =>
    let methods := a.methods ++ b.methods.filter fun m => !a.methods.any fun n => n.1 == m.1
    let comparable := a.comparable || b.comparable
    match Term.meetLists tb.under (fun x y => sameWithin tb true k [] x y) a.terms b.terms with
    | none => ⟨methods, none, comparable⟩
    | some ts =>
      ⟨methods,
       some (if comparable then ts.filter fun t => (comparableWithin tb false k [] t.type).isSome
         else ts),
       false⟩

/-- Values of a type can be compared; ordinary interfaces count when `dynamic`. `seen` are types that
need not be judged again, and the result has those after the judgement. -/
def comparableWithin (tb : TypeTable) (dynamic : Bool) : Nat → List Ty → Ty → Option (List Ty)
  | 0, _, _ => none
  | k + 1, seen, t =>
    if seen.any fun u => u.same t then some seen
    else
      let seen := t :: seen
      match tb.under t with
      | .basic b => if b == .untypedNil then none else some seen
      | .pointer _ | .chan _ _ => some seen
      | .array _ e => comparableWithin tb dynamic k seen e
      | .struct _ ts => ts.foldlM (fun seen u => comparableWithin tb dynamic k seen u) seen
      | .interface .. =>
        if dynamic && !t.isParam then some seen
        else
          let s := typeSetWithin tb k [] t
          match s.terms with
          | none => if s.comparable then some seen else none
          | some [] => none
          | some ts => ts.foldlM (fun seen u => comparableWithin tb false k seen u.type) seen
      | _ => none

end

/-- Two types are the same. -/
def same (tb : TypeTable) (a b : Ty) : Bool := a.same b || tb.sameWithin true depth [] a b

/-- Two types are the same but for the tags of fields. -/
def sameUntagged (tb : TypeTable) (a b : Ty) : Bool := a.same b || tb.sameWithin false depth [] a b

/-- Two lists of types are the same. -/
def sameAll (tb : TypeTable) (as bs : List Ty) : Bool := tb.sameAllWithin true depth [] as bs

/-- What an interface or a type parameter admits. -/
def typeSet (tb : TypeTable) (t : Ty) : TypeSet := tb.typeSetWithin depth [] t

/-- Values of the type can be compared with each other. -/
def isComparable (tb : TypeTable) (t : Ty) : Bool := (tb.comparableWithin true depth [] t).isSome

/-- Comparing values of the type cannot fail when the program runs. -/
def isStrictlyComparable (tb : TypeTable) (t : Ty) : Bool :=
  (tb.comparableWithin false depth [] t).isSome

/-- All types of the set can be compared. -/
def admitsComparable (tb : TypeTable) (s : TypeSet) : Bool :=
  match s.terms with
  | none => s.comparable
  | some [] => false
  | some ts => ts.all fun t => tb.isStrictlyComparable t.type

/-- All types of one set are in the list of another one. -/
def listWithin (tb : TypeTable) (s t : TypeSet) : Bool :=
  Term.listWithin tb.under tb.same s.terms t.terms

/-- An interface can be used for constraints only. -/
def isConstraint (tb : TypeTable) (t : Ty) : Bool := tb.isInterface t && !(tb.typeSet t).isMethodSet

/-! ## Types that a type parameter stands for -/

/-- The terms of a type parameter; none where it does not list types. -/
def termsOf (tb : TypeTable) (t : Ty) : List Term := (tb.typeSet t).listed

/-- The underlying types of all types that a type stands for: its own, or, for a type parameter,
those of its terms. None where a type parameter does not list types. -/
def unders (tb : TypeTable) (t : Ty) : List Ty :=
  match t with
  | .param .. => (tb.termsOf t).map fun u => tb.under u.type
  | t => [tb.under t]

/-- The underlying types of all types that a type stands for have a property, and there are some. -/
def underAll (tb : TypeTable) (t : Ty) (p : Ty → Bool) : Bool :=
  let us := tb.unders t
  !us.isEmpty && us.all p

/-- All types that a type stands for are basic types with the property, or over such types. -/
def all (tb : TypeTable) (p : Basic → Bool) (t : Ty) : Bool :=
  tb.underAll t fun u =>
    match u with
    | .basic b => p b
    | _ => false

/-- The type that stands for two underlying types: they are the same, or channels of which only one
has a direction. -/
def merge (tb : TypeTable) (x y : Ty) : Option Ty :=
  if tb.same x y then some x
  else
    match x, y with
    | .chan d a, .chan e b =>
      if !tb.same a b then none
      else if d = .both then some y
      else if e = .both then some x
      else none
    | _, _ => none

/-- The type that stands for all of a list of underlying types. -/
def mergeAll (tb : TypeTable) : List Ty → Option Ty
  | [] => none
  | u :: us => us.foldlM tb.merge u

/-- The one underlying type of all types that a type stands for. -/
def core (tb : TypeTable) (t : Ty) : Option Ty := tb.mergeAll (tb.unders t)

/-- As `core`, but texts go with slices of bytes; the result is a text if one of them is. -/
def coreText (tb : TypeTable) (t : Ty) : Option Ty :=
  match t with
  | .param .. =>
    let us := tb.unders t
    let isText := tb.is Basic.isString
    let bytes := us.map fun u => if isText u then Ty.slice (.basic .uint8) else u
    (tb.mergeAll bytes).map fun u => if us.any isText then .basic .string else u
  | t => some (tb.under t)

/-- A plain underlying type has the value nil. -/
def plainHasNil : Ty → Bool
  | .basic b => b == .rawPointer
  | .pointer _ | .func .. | .slice _ | .mapping .. | .chan .. | .interface .. => true
  | _ => false

/-- The type has the value nil. -/
def hasNil (tb : TypeTable) (t : Ty) : Bool := tb.underAll t plainHasNil

end TypeTable

end CaseCover
