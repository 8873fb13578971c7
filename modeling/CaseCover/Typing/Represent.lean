import CaseCover.Const.Arithmetic
import CaseCover.Typing.Type

/-!
# Constants of a type

A constant can take a basic type when the type has its value. An integer type needs a whole number
in its range; a floating point type takes the nearest number of its format, if that is finite.
-/

namespace CaseCover

namespace Basic

/-- The format of the parts of a floating point or complex type; none for the exact types. -/
def format? : Basic → Option BinaryFormat
  | .float32 | .complex64 => some .single
  | .float64 | .complex128 => some .double
  | _ => none

/-- An integer lies in the range of an integer type. -/
def holds (b : Basic) (v : Int) : Bool :=
  if b.bits = 0 then true
  else if b.isUnsigned then 0 ≤ v && v < (2 ^ b.bits : Nat)
  else -(2 ^ (b.bits - 1) : Nat) ≤ v && v < (2 ^ (b.bits - 1) : Nat)

/-- A real number in the format of a type. -/
def roundPart (b : Basic) (r : Real) : Option Real :=
  match b.format? with
  | some f => r.roundIn f
  | none => some r

end Basic

/-- The constant as a value of a basic type, rounded to it; none when the type does not have it. -/
def Const.represent (c : Const) (b : Basic) : Option Const :=
  if b.isInteger then
    match c.toInt? with
    | some v => if b.holds v then some (.int v) else none
    | none => none
  else if b.isFloat then
    (c.toReal?.bind b.roundPart).map .real
  else if b.isComplex then
    match c.parts? with
    | some (re, im) =>
      match b.roundPart re, b.roundPart im with
      | some r, some i => some (.complex r i)
      | _, _ => none
    | none => none
  else
    match c with
    | .str s => if b.isString then some (.str s) else none
    | .bool v => if b.isBoolean then some (.bool v) else none
    | _ => none

/-- The most bits that an untyped integer may have. -/
def Const.maxBits : Nat := 512

/-- An untyped constant has become too large. -/
def Const.overflows (c : Const) : Bool :=
  match c.int? with
  | some v => Const.maxBits < Const.bitLength v
  | none => false

end CaseCover
