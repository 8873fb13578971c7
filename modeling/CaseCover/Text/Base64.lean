import CaseCover.Text

/-!
# Base64

Four characters of an alphabet of 64 stand for three bytes; the last group is filled up with `=`.
Line breaks between the characters mean nothing.
-/

namespace CaseCover.Text.Base64

/-- The value of a character of the alphabet. -/
def value (b : UInt8) : Option Nat :=
  let n := b.toNat
  if 0x41 ≤ n && n ≤ 0x5A then some (n - 0x41)
  else if 0x61 ≤ n && n ≤ 0x7A then some (n - 0x61 + 26)
  else if 0x30 ≤ n && n ≤ 0x39 then some (n - 0x30 + 52)
  else if n == 0x2B then some 62
  else if n == 0x2F then some 63
  else none

/-- The bytes of groups of four characters; only the last one may be filled up. -/
def groups : Text → Option Text
  | [] => some []
  | [a, b, 0x3D, 0x3D] => do
    let a ← value a
    let b ← value b
    return [UInt8.ofNat (a * 4 + b / 16)]
  | [a, b, c, 0x3D] => do
    let a ← value a
    let b ← value b
    let c ← value c
    return [UInt8.ofNat (a * 4 + b / 16), UInt8.ofNat (b % 16 * 16 + c / 4)]
  | a :: b :: c :: d :: rest => do
    let a ← value a
    let b ← value b
    let c ← value c
    let d ← value d
    let more ← groups rest
    return UInt8.ofNat (a * 4 + b / 16) :: UInt8.ofNat (b % 16 * 16 + c / 4) ::
      UInt8.ofNat (c % 4 * 64 + d) :: more
  | _ => none

/-- The bytes that a text stands for. -/
def decode? (t : Text) : Option Text := groups (t.filter fun b => b ≠ 0x0A && b ≠ 0x0D)

end CaseCover.Text.Base64
