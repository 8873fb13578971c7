import CaseCover.Decimal.Binary
import CaseCover.Text

/-!
# Decimal text of fractions

`Decimal.shortest` gives the fewest digits that still denote a binary number, nearest to it among
those; `Decimal.significant` gives a fixed number of digits, the last one rounded to nearest and a
tie to the even digit. `Decimal.general` writes the digits: positionally while the exponent is at
least -4 and below 6, with an exponent of two or more digits otherwise.
-/

namespace CaseCover

/-- The positive number `0.d₁d₂… * 10 ^ point`; no digits denote zero. -/
structure Decimal where
  digits : List Nat
  point : Int
deriving DecidableEq

namespace Decimal

/-- The decimal digits of a positive number, first digit first; none for zero. -/
def digitsOf (n : Nat) : List Nat :=
  if n == 0 then [] else (Nat.toDigits 10 n).map fun c => c.toNat - '0'.toNat

/-- `n / d * 10 ^ k` as a fraction. -/
def scaled (n d : Nat) : Int → Nat × Nat
  | .ofNat k => (n * 10 ^ k, d)
  | .negSucc k => (n, d * 10 ^ (k + 1))

/-- The `x` with `10 ^ x ≤ n / d < 10 ^ (x + 1)`, for positive `n` and `d`. -/
def exponentOf (n d : Nat) : Int :=
  let guess : Int := ((digitsOf n).length : Int) - (digitsOf d).length
  let (a, b) := scaled n d (-guess)
  if b ≤ a then guess else guess - 1

/-- The decimal with the digits of `n`, its trailing zeros dropped, scaled by `10 ^ unit`. -/
def ofScaled (n : Nat) (unit : Int) : Decimal :=
  let ds := digitsOf n
  ⟨(ds.reverse.dropWhile (· == 0)).reverse, ds.length + unit⟩

/-- `n / d` with `count` significant digits, to nearest, ties to even. -/
def significant (count : Nat) (n d : Nat) : Decimal :=
  if n == 0 then ⟨[], 0⟩
  else
    let unit := exponentOf n d - (count - 1 : Nat)
    let (a, b) := scaled n d (-unit)
    ofScaled (roundDiv a b) unit

/-- Twice the distances from a binary number to the ends of the interval of reals that are rounded
to it, in units of a quarter of its last digit: below and above. -/
def gaps (f : BinaryFormat) (b : Binary) : Nat × Nat :=
  if b.significand == 2 ^ (f.precision - 1) && f.minExponent < b.exponent then (1, 2) else (2, 2)

/-- A fraction `n / d` is rounded to `b` by the format: it lies between the midpoints to the
neighbours, a midpoint itself counting when the significand is even. -/
def readsBack (f : BinaryFormat) (b : Binary) (n d : Nat) : Bool :=
  let (below, above) := gaps f b
  -- compare in quarters of the last binary digit
  let (n', d') : Nat × Nat :=
    match b.exponent - 2 with
    | .ofNat k => (n, d * 2 ^ k)
    | .negSucc k => (n * 2 ^ (k + 1), d)
  let lo := (4 * b.significand - below) * d'
  let hi := (4 * b.significand + above) * d'
  if b.significand % 2 == 0 then lo ≤ n' && n' ≤ hi else lo < n' && n' < hi

/-- The first decimal among the grids of `count`, `count + 1`, … digits that reads back. -/
def shortestFrom (f : BinaryFormat) (b : Binary) (n d : Nat) : Nat → Nat → Decimal
  | 0, count => significant count n d
  | fuel + 1, count =>
    let unit := exponentOf n d - (count - 1 : Nat)
    let (a, c) := scaled n d (-unit)
    let low := a / c
    let value := fun k => scaled k 1 unit
    let lowFits := low ≠ 0 && readsBack f b (value low).1 (value low).2
    let highFits := readsBack f b (value (low + 1)).1 (value (low + 1)).2
    if lowFits && highFits then ofScaled (roundDiv a c) unit
    else if lowFits then ofScaled low unit
    else if highFits then ofScaled (low + 1) unit
    else shortestFrom f b n d fuel (count + 1)

/-- The fewest digits that the format reads back as `b`. -/
def shortest (f : BinaryFormat) (b : Binary) : Decimal :=
  if b.significand == 0 then ⟨[], 0⟩
  else
    let q := b.toRat
    shortestFrom f b q.num.natAbs q.den 17 1

/-- Digits as text. -/
def digitText (ds : List Nat) : Text := ds.map fun d => UInt8.ofNat (0x30 + d)

/-- An exponent with its sign and at least `width` digits. -/
def exponentText (width : Nat) (x : Int) : Text :=
  let ds := Text.ofNat x.natAbs
  (if x < 0 then 0x2D else 0x2B) :: (List.replicate (width - ds.length) 0x30 ++ ds)

/-- The text of a decimal: with an exponent when it is below -4 or at least 6. -/
def general (dec : Decimal) : Text :=
  match dec.digits with
  | [] => "0"
  | d :: ds =>
    let x := dec.point - 1
    if x < -4 || 6 ≤ x then
      digitText [d] ++ (if ds.isEmpty then [] else 0x2E :: digitText ds) ++ 0x65 :: exponentText 2 x
    else
      match dec.point with
      | .ofNat 0 => utf8 "0." ++ digitText (d :: ds)
      | .negSucc k => utf8 "0." ++ List.replicate (k + 1) 0x30 ++ digitText (d :: ds)
      | .ofNat p =>
        let all := d :: ds
        if all.length ≤ p then digitText (all ++ List.replicate (p - all.length) 0)
        else digitText (all.take p) ++ 0x2E :: digitText (all.drop p)

/-- A sign in front of a text. -/
def signed (negative : Bool) (t : Text) : Text := if negative then 0x2D :: t else t

end Decimal

end CaseCover
