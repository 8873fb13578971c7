import CaseCover.Text

/-!
# Binary floating point formats

Rounding of exact fractions to a binary format: to the nearest number `m * 2 ^ e` of the format,
and to the one with even `m` when two are equally near. Everything is computed in integers, so the
result is exact; there is no machine arithmetic behind it.
-/

namespace CaseCover

/-- A quotient of natural numbers, rounded to the nearest integer and to the even one on a tie. -/
def roundDiv (n d : Nat) : Nat :=
  let q := n / d
  let r := n % d
  if d < 2 * r || (2 * r == d && q % 2 == 1) then q + 1 else q

/-- `n / (d * 2 ^ e)`, rounded as `roundDiv` does. -/
def roundDivPow (n d : Nat) (e : Int) : Nat :=
  match e with
  | .ofNat k => roundDiv n (d * 2 ^ k)
  | .negSucc k => roundDiv (n * 2 ^ (k + 1)) d

/-- The greatest `k` with `2 ^ k ≤ n / d`, for positive `n` and `d`. -/
def floorLog2Frac (n d : Nat) : Int :=
  let l : Int := (Nat.log2 n : Int) - Nat.log2 d
  let reached : Bool :=
    match l with
    | .ofNat k => d * 2 ^ k ≤ n
    | .negSucc k => d ≤ n * 2 ^ (k + 1)
  if reached then l else l - 1

/-- A binary format: the digits of a significand, the least exponent of its last digit, and the
power of two at which numbers become infinite. -/
structure BinaryFormat where
  precision : Nat
  minExponent : Int
  limit : Nat
deriving DecidableEq

/-- Single precision. -/
def BinaryFormat.single : BinaryFormat := ⟨24, -149, 128⟩

/-- Double precision. -/
def BinaryFormat.double : BinaryFormat := ⟨53, -1074, 1024⟩

/-- A positive number of a binary format, `significand * 2 ^ exponent`. -/
structure Binary where
  significand : Nat
  exponent : Int
deriving DecidableEq

/-- The exact value of a binary number. -/
def Binary.toRat (b : Binary) : Rat :=
  match b.exponent with
  | .ofNat k => ((b.significand * 2 ^ k : Nat) : Rat)
  | .negSucc k => mkRat b.significand (2 ^ (k + 1))

/-- The number of the format nearest to `n / d`, or none when it is infinite. -/
def BinaryFormat.nearest (f : BinaryFormat) (n d : Nat) : Option Binary :=
  if n == 0 then some ⟨0, f.minExponent⟩
  else
    let k := floorLog2Frac n d
    let e := max (k - (f.precision - 1 : Nat)) f.minExponent
    let m := roundDivPow n d e
    let tooLarge : Bool :=
      match (f.limit : Int) - e with
      | .ofNat j => 2 ^ j ≤ m
      | .negSucc _ => true
    if tooLarge then none else some ⟨m, e⟩

/-- The fraction rounded to the format; none when it becomes infinite. -/
def BinaryFormat.round (f : BinaryFormat) (q : Rat) : Option Rat :=
  (f.nearest q.num.natAbs q.den).map fun b => if q.num < 0 then -b.toRat else b.toRat

end CaseCover
