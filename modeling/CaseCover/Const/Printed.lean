import CaseCover.Const.Arithmetic
import CaseCover.Decimal.Shortest

/-!
# The text of a constant

Strings stand as they are and integers in decimal. Other numbers are first rounded to double
precision and then written with the fewest digits that tell the rounded number. The parts of a
complex number have six significant digits, more only where a number that is not whole would look
whole.
-/

namespace CaseCover

namespace Real

/-- A double in its shortest form. -/
def doubleText (negative : Bool) (b : Binary) : Text :=
  if b.significand == 0 then "0" else Decimal.signed negative (Decimal.shortest .double b).general

/-- The double nearest to a number, in its shortest form, with `+Inf` and `-Inf` beyond all
doubles. -/
def shortestText (r : Real) : Text :=
  match r.nearestIn .double with
  | none => if r.sign < 0 then "-Inf" else "+Inf"
  | some b => doubleText (r.sign < 0) b

/-- Six significant digits of a fraction. -/
def sixDigits (q : Rat) : Text :=
  Decimal.signed (q.num < 0) (Decimal.significant 6 q.num.natAbs q.den).general

/-- The power of ten at or below a power of two, toward one: `k * log₁₀ 2` without its fraction. -/
def decimalMagnitude (k : Int) : Int :=
  let scaled : Int := k.natAbs * 30102999566398119521373889472449302676818988146210854131 / 10 ^ 56
  if k < 0 then -scaled else scaled

/-- `w / 10 ^ e`. -/
def shrink (w : Wide) (e : Int) : Wide :=
  let power := Wide.powerOfFive (Wide.precision + 64) e.natAbs
  let scaled := if e < 0 then Wide.mulTo Wide.precision w power else Wide.quoTo Wide.precision w power
  ⟨scaled.significand, scaled.exponent - e⟩

/-- A number outside the range of doubles, as a coefficient with a decimal exponent. -/
def scaledText (w : Wide) : Text :=
  let e := decimalMagnitude w.magnitude
  let coefficient := fun (x : Int) => (shrink ⟨w.significand.natAbs, w.exponent⟩ x).toRat
  let e := if coefficient e < 1 - mkRat 1 2000000 then e - 1 else e
  Decimal.signed (w.significand < 0) (sixDigits (coefficient e)) ++ 0x65 :: Decimal.exponentText 1 e

/-- A number of 512 digits as part of a complex number. -/
def wideText (w : Wide) : Text :=
  match w.nearestIn .double with
  | none => scaledText w
  | some b =>
    if b.significand == 0 && w.significand ≠ 0 then scaledText w
    else
      let six := sixDigits (if w.significand < 0 then -b.toRat else b.toRat)
      if !w.isWhole && !six.contains 0x2E then doubleText (w.significand < 0) b else six

/-- A part of a complex number. -/
def partText : Real → Text
  | .int v => Text.ofInt v
  | r => wideText r.toWide

end Real

namespace Const

/-- The text of a constant in a message. -/
def text : Const → Text
  | .bool b => if b then "true" else "false"
  | .str s => s
  | .real (.int v) => Text.ofInt v
  | .real r => r.shortestText
  | .complex re im => 0x28 :: re.partText ++ utf8 " + " ++ im.partText ++ utf8 "i)"

end Const

end CaseCover
