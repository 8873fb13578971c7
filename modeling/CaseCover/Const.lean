import CaseCover.Decimal.Wide
import CaseCover.Text

/-!
# Constants

The values that constant expressions denote: booleans, strings and numbers. A number keeps the form
it was written or computed in: an integer, an exact fraction, or, when a fraction would become too
large, a number of 512 binary digits; a complex number has two such parts. The form decides how a
number is printed. Two numbers are compared in the richer of their forms, so integers and fractions
are equal exactly when they denote the same number (`Real.same_iff_toRat`).
-/

namespace CaseCover

/-- A real number, as an integer, as a fraction or with 512 binary digits. -/
inductive Real where
  | int (v : Int)
  | frac (q : Rat)
  | wide (w : Wide)
deriving DecidableEq

namespace Real

/-- The fraction a real number denotes. -/
def toRat : Real → Rat
  | .int v => v
  | .frac q => q
  | .wide w => w.toRat

/-- The number with 512 binary digits. -/
def toWide : Real → Wide
  | .int v => Wide.ofInt v
  | .frac q => Wide.ofRat q
  | .wide w => w

/-- The number is kept exactly, as an integer or a fraction. -/
def isExact : Real → Bool
  | .wide _ => false
  | _ => true

/-- How two fractions compare. -/
def ratOrder (a b : Rat) : Ordering := if a == b then .eq else if a < b then .lt else .gt

/-- How two reals compare, in the richer of their forms. -/
def order (a b : Real) : Ordering :=
  match a, b with
  | .int m, .int n => compare m n
  | a, b => if a.isExact && b.isExact then ratOrder a.toRat b.toRat else a.toWide.order b.toWide

/-- Two reals are the same number in the richer of their forms. -/
def same (a b : Real) : Bool := a.order b == .eq

theorem same_iff_toRat {a b : Real} (ha : a.isExact) (hb : b.isExact) :
    same a b = true ↔ a.toRat = b.toRat := by
  have ratOrder_eq (p q : Rat) : (ratOrder p q == .eq) = true ↔ p = q := by
    unfold ratOrder
    by_cases h : p = q
    · simp [h]
    · by_cases hlt : p < q <;> simp [h, hlt]
  cases a <;> cases b <;>
    simp_all [same, order, toRat, isExact, Std.LawfulEqCmp.compare_eq_iff_eq]

end Real

/-- A constant. -/
inductive Const where
  | bool (b : Bool)
  | str (s : Text)
  | real (r : Real)
  | complex (re im : Real)
deriving DecidableEq

namespace Const

/-- An integer constant. -/
abbrev int (v : Int) : Const := .real (.int v)

/-- A constant held as a fraction. -/
abbrev frac (q : Rat) : Const := .real (.frac q)

/-- The real and imaginary part of a number. -/
def parts? : Const → Option (Real × Real)
  | .real r => some (r, .int 0)
  | .complex re im => some (re, im)
  | _ => none

/-- The complex number a numeric constant denotes, as its two parts. -/
def number? (c : Const) : Option (Rat × Rat) := c.parts?.map fun p => (p.1.toRat, p.2.toRat)

/-- Two constants denote the same string, the same truth value or the same number. -/
def same (a b : Const) : Bool :=
  match a, b with
  | .str s, .str t => s == t
  | .bool s, .bool t => s == t
  | .real r, .real s => r.same s
  | a, b =>
    match a.parts?, b.parts? with
    | some (ar, ai), some (br, bi) => ar.same br && ai.same bi
    | _, _ => false

/-- The integer of a constant that is held as an integer. -/
def int? : Const → Option Int
  | .real (.int v) => some v
  | _ => none

/-- The string of a string constant. -/
def str? : Const → Option Text
  | .str s => some s
  | _ => none

/-- The truth value of a boolean constant. -/
def bool? : Const → Option Bool
  | .bool b => some b
  | _ => none

end Const

end CaseCover
