import CaseCover.Coverage.Shape
import CaseCover.Typing.TypeSet

/-!
# Enumerations

The shape of an expression's type. A constant is a literal. A declared type over truth values,
numbers or texts is the union of the constants of exactly that type that its package declares, as
far as the viewing package can see them, in the order of their positions. Constants that look like
bit flags are no enumeration. All other types have no shape.
-/

namespace CaseCover

/-- A constant of a package. Its value is missing when it could not be determined. -/
structure DeclaredConst where
  name : Text
  pos : Pos
  type : Ty
  value : Option Const

/-- The constants in the scope of a package. -/
structure ConstScope where
  path : Text
  constants : List DeclaredConst

/-- What shapes depend on: the declared types, the packages, and the package that looks. -/
structure Viewpoint where
  table : TypeTable
  packages : List ConstScope
  viewer : Option Text

/-- What is asked about: nothing that is known, a constant, or a value of a type. -/
inductive Query where
  | unknown
  | constant (value : Value)
  | typed (type : Ty)

namespace Enum

/-! ## Flags -/

/-- The numbers as 64 bit words, if all of them are. -/
def words? : List (Option Const) → Option (List Nat)
  | [] => some []
  | some (.real (.int v)) :: rest =>
    if 0 ≤ v && v < (2 ^ 64 : Nat) then (words? rest).map (v.toNat :: ·) else none
  | _ :: _ => none

/-- The numbers without repetitions in growing order. -/
def sortedDistinct (ns : List Nat) : List Nat := (ns.eraseDups).mergeSort fun a b => a ≤ b

/-- The numbers other than `v` and 0 all of whose bits are bits of `v`. -/
def partsOf (ns : List Nat) (v : Nat) : List Nat :=
  ns.filter fun u => u ≠ 0 && u ≠ v && (u &&& v) == u

/-- A number is made of the bits of two or more of the others. -/
def isUnionOfOthers (ns : List Nat) (v : Nat) : Bool :=
  let parts := partsOf ns v
  v ≠ 0 && 2 ≤ parts.length && parts.foldl (· ||| ·) 0 == v

/-- Words in growing order follow each other without a gap. The difference of the last and the first
is taken in 64 bits. -/
def isDense (ns : List Nat) : Bool :=
  match ns.head?, ns.getLast? with
  | some a, some b => UInt64.ofNat b - UInt64.ofNat a == UInt64.ofNat (ns.length - 1)
  | _, _ => true

/-- Constants look like bit flags: there are three values or more, they leave gaps, and one of them
is the union of others. -/
def looksLikeFlags (values : List (Option Const)) : Bool :=
  match words? values with
  | none => false
  | some ws =>
    let ns := sortedDistinct ws
    3 ≤ ns.length && !isDense ns && ns.any (isUnionOfOthers ns)

/-! ## Shapes -/

/-- The constants of a type that the viewing package sees. -/
def visible (v : Viewpoint) (p : ConstScope) (t : Ty) : List DeclaredConst :=
  p.constants.filter fun c =>
    v.table.same c.type t && (v.viewer == some p.path || Text.isExported c.name)

/-- Constants by position; those at one position by name. -/
def ordered (cs : List DeclaredConst) : List DeclaredConst :=
  (cs.mergeSort fun a b => Text.lessEq a.name b.name).mergeSort fun a b => a.pos ≤ b.pos

/-- The union of constants; nothing without constants, with an unknown value, or for flags. -/
def unionOf (cs : List DeclaredConst) : Shape :=
  if cs.isEmpty || cs.any (·.value.isNone) || looksLikeFlags (cs.map (·.value)) then .other
  else .union (cs.map fun c => .literal ⟨⟨c.value⟩, c.name, c.pos⟩)

/-- The shape of a type. -/
def shapeOf (v : Viewpoint) (t : Ty) : Shape :=
  match t with
  | .named n _ =>
    match v.table.under t, n.home with
    | .basic b, some path =>
      if b.isConstant then
        match v.packages.find? fun p => p.path == path with
        | some p => unionOf (ordered (visible v p t))
        | none => .other
      else .other
    | _, _ => .other
  | _ => .other

/-- The answer to a query. -/
def answer (v : Viewpoint) : Query → Shape
  | .unknown => .other
  | .constant ⟨none⟩ => .other
  | .constant value => .literal ⟨value, [], 0⟩
  | .typed t => shapeOf v t

/-! ## Remembered shapes -/

/-- The shapes of types asked about before. A type finds what is kept for a type that is the same. -/
abbrev Memory := List (Ty × Shape)

/-- The answer to a query, from memory where it has been given before. -/
def answerFrom (v : Viewpoint) (m : Memory) : Query → Shape × Memory
  | .typed t =>
    match m.find? fun e => v.table.same t e.1 with
    | some e => (e.2, m)
    | none =>
      let s := shapeOf v t
      (s, (t, s) :: m)
  | q => (answer v q, m)

/-- The answers to queries one after the other. -/
def answerAll (v : Viewpoint) : Memory → List Query → List Shape
  | _, [] => []
  | m, q :: qs =>
    let (s, m) := answerFrom v m q
    s :: answerAll v m qs

end Enum

end CaseCover
