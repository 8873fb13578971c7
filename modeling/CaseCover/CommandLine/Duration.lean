import CaseCover.Text

/-!
# Durations

A duration is written as numbers with units, such as `1h30m` or `-1.5s`, and counted in
nanoseconds. It has to fit into 64 bits.
-/

namespace CaseCover.Duration

/-- The units in nanoseconds. -/
def units : List (Text × Nat) :=
  [("ns", 1), ("us", 1000), ("µs", 1000), ("μs", 1000), ("ms", 1000000), ("s", 1000000000),
   ("m", 60000000000), ("h", 3600000000000)].map fun u => (utf8 u.1, u.2)

/-- The number of nanoseconds that cannot be passed. -/
def limit : Nat := 2 ^ 63

/-- A character of a number. -/
def isNumberByte (b : UInt8) : Bool := b == 0x2E || Text.isDigit b

/-- The digits at the start of a text, and the rest. -/
def digits (t : Text) : Text × Text := (t.takeWhile Text.isDigit, t.dropWhile Text.isDigit)

/-- A number with its unit at the start of a text, in nanoseconds, and the rest. -/
def readPart (t : Text) : Option (Nat × Text) := do
  let (whole, rest) := digits t
  let (fraction, rest) := match rest with
    | 0x2E :: rest => digits rest
    | rest => ([], rest)
  if whole.isEmpty && fraction.isEmpty then none
  let name := rest.takeWhile fun b => !isNumberByte b
  let unit ← units.lookup name
  let n := (Text.toNat? 10 whole).getD 0
  if limit < n * unit then none
  let v := n * unit + (Text.toNat? 10 fraction).getD 0 * unit / 10 ^ fraction.length
  if limit < v then none
  return (v, rest.drop name.length)

/-- The sum of the parts of a text; each part takes at least one byte. -/
def readParts : Nat → Nat → Text → Option Nat
  | _, sum, [] => some sum
  | 0, _, _ => none
  | fuel + 1, sum, t => do
    let (v, rest) ← readPart t
    if limit < sum + v then none
    readParts fuel (sum + v) rest

/-- Reads a duration, which may have a sign. -/
def parse (t : Text) : Option Int := do
  let negative := t.head? == some 0x2D
  let body := if negative || t.head? == some 0x2B then t.drop 1 else t
  if body == utf8 "0" then return 0
  if body.isEmpty then none
  let n ← readParts body.length 0 body
  if negative then return -(n : Int)
  if limit ≤ n then none
  return n

end CaseCover.Duration
