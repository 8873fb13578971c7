import CaseCover.Const

/-!
# Arithmetic on constants

Sums, differences and products of integers stay integers; a quotient is a fraction, also when it
is whole. A fraction whose parts become too large is turned into a number of 512 binary digits.
Mixed operands are brought to the richer of the two forms first.
-/

namespace CaseCover

namespace Real

/-- The parts of a fraction have fewer binary digits than this. -/
def fractionDigits : Nat := 4096

/-- An integer is small enough to be a part of a fraction. -/
def isPart (v : Int) : Bool := Wide.digitCount v.natAbs < fractionDigits

/-- A fraction, or the number of 512 digits nearest to it when it is too large. -/
def ofRat (q : Rat) : Real := if isPart q.num && isPart q.den then .frac q else .wide (Wide.ofRat q)

/-- An operation on integers or fractions, or on numbers of 512 digits. -/
def combine (onRat : Rat → Rat → Rat) (onWide : Wide → Wide → Option Wide) (a b : Real) : Option Real :=
  if a.isExact && b.isExact then some (ofRat (onRat a.toRat b.toRat))
  else (onWide a.toWide b.toWide).map .wide

def add : Real → Real → Option Real
  | .int a, .int b => some (.int (a + b))
  | a, b => combine (· + ·) Wide.add a b

def sub : Real → Real → Option Real
  | .int a, .int b => some (.int (a - b))
  | a, b => combine (· - ·) Wide.sub a b

def mul : Real → Real → Option Real
  | .int a, .int b => some (.int (a * b))
  | a, b => combine (· * ·) Wide.mul a b

/-- How a number compares with zero. -/
def sign : Real → Int
  | .int v => v.sign
  | .frac q => q.num.sign
  | .wide w => w.significand.sign

def isZero (r : Real) : Bool := r.sign == 0

/-- The quotient, which is no integer; none for the divisor zero. -/
def div (a b : Real) : Option Real := if b.isZero then none else combine (· / ·) Wide.quo a b

def neg : Real → Real
  | .int a => .int (-a)
  | .frac q => .frac (-q)
  | .wide w => .wide w.neg

/-- The number in a form other than that of integers. -/
def unwhole : Real → Real
  | .int v => if isPart v then .frac v else .wide (Wide.ofInt v)
  | r => r

/-- The integer a number is; a number of 512 digits that misses one by its last digits counts. -/
def toInt? : Real → Option Int
  | .int v => some v
  | .frac q => if q.den == 1 then some q.num else none
  | .wide w => w.nearlyInt?

/-- The number of a binary format nearest to the magnitude; none when it is infinite. Integers are
cut to 512 digits first. -/
def nearestIn (f : BinaryFormat) : Real → Option Binary
  | .frac q => f.nearest q.num.natAbs q.den
  | r => r.toWide.nearestIn f

/-- The number rounded to a binary format, if it stays finite. -/
def roundIn (f : BinaryFormat) (r : Real) : Option Real :=
  (r.nearestIn f).map fun b => .frac (if r.sign < 0 then -b.toRat else b.toRat)

end Real

namespace Const

/-- The arithmetic operators that exist for all numbers. -/
inductive Arith where
  | add | sub | mul | div
deriving DecidableEq

/-- The bitwise operators on integers, and the remainder. -/
inductive Bitwise where
  | and | or | xor | andNot | rem
deriving DecidableEq

/-- The order relations and equalities. -/
inductive Relation where
  | eq | ne | lt | le | gt | ge
deriving DecidableEq

/-- The operator on two reals. -/
def Arith.onReal : Arith → Real → Real → Option Real
  | .add => Real.add
  | .sub => Real.sub
  | .mul => Real.mul
  | .div => Real.div

/-- The operator on two complex numbers given by their parts. -/
def Arith.onComplex (op : Arith) (a b c d : Real) : Option Const := do
  match op with
  | .add => return .complex (← a.add c) (← b.add d)
  | .sub => return .complex (← a.sub c) (← b.sub d)
  | .mul =>
    return .complex (← (← a.mul c).sub (← b.mul d)) (← (← b.mul c).add (← a.mul d))
  | .div =>
    let s ← (← c.mul c).add (← d.mul d)
    let re ← (← a.mul c).add (← b.mul d)
    let im ← (← b.mul c).sub (← a.mul d)
    return .complex (← re.div s) (← im.div s)

/-- Arithmetic on numbers, and concatenation of strings. -/
def arith (op : Arith) (x y : Const) : Option Const :=
  match x, y with
  | .str s, .str t => if op = .add then some (.str (s ++ t)) else none
  | .real a, .real b => (op.onReal a b).map .real
  | x, y =>
    match x.parts?, y.parts? with
    | some (a, b), some (c, d) => op.onComplex a b c d
    | _, _ => none

/-- The integer quotient, truncated toward zero. -/
def intDiv (x y : Const) : Option Const :=
  match x, y with
  | .real (.int a), .real (.int b) => some (.int (a.tdiv b))
  | _, _ => none

/-- `a` and `b` combined bit by bit in two's complement of unbounded width. -/
def intBits (f : Bool → Bool → Bool) (a b : Int) : Int :=
  let width := max (Nat.log2 a.natAbs) (Nat.log2 b.natAbs) + 2
  let modulus : Nat := 2 ^ width
  let low := fun (z : Int) => (z.emod modulus).toNat
  let bits := (List.range width).foldl (fun acc i =>
    if f ((low a).testBit i) ((low b).testBit i) then acc + 2 ^ i else acc) 0
  if f (a < 0) (b < 0) then (bits : Int) - modulus else bits

/-- The bitwise operators and the remainder on integers. -/
def bitwise (op : Bitwise) (x y : Const) : Option Const :=
  match x, y with
  | .real (.int a), .real (.int b) =>
    match op with
    | .and => some (.int (intBits (· && ·) a b))
    | .or => some (.int (intBits (· || ·) a b))
    | .xor => some (.int (intBits xor a b))
    | .andNot => some (.int (intBits (fun p q => p && !q) a b))
    | .rem => some (.int (a.tmod b))
  | _, _ => none

/-- The relation holds for an ordering of the operands. -/
def Relation.holds : Relation → Ordering → Bool
  | .eq, o => o == .eq
  | .ne, o => o != .eq
  | .lt, o => o == .lt
  | .le, o => o != .gt
  | .gt, o => o == .gt
  | .ge, o => o != .lt

/-- How two texts compare byte by byte. -/
def textOrder (s t : Text) : Ordering :=
  if s == t then .eq else if Text.less s t then .lt else .gt

/-- Compares two constants of one family. -/
def compare (rel : Relation) (x y : Const) : Option Bool :=
  match x, y with
  | .str s, .str t => some (rel.holds (textOrder s t))
  | .bool s, .bool t =>
    match rel with
    | .eq => some (s == t)
    | .ne => some (s != t)
    | _ => none
  | .real a, .real b => some (rel.holds (a.order b))
  | x, y =>
    match rel with
    | .eq => (x.parts?.bind fun _ => y.parts?).map fun _ => x.same y
    | .ne => (x.parts?.bind fun _ => y.parts?).map fun _ => !x.same y
    | _ => none

/-- The negated number. -/
def neg : Const → Option Const
  | .real r => some (.real r.neg)
  | .complex re im => some (.complex re.neg im.neg)
  | _ => none

/-- The bitwise complement of an integer, cut to `bits` bits for an unsigned type of that width. -/
def complement (bits : Option Nat) : Const → Option Const
  | .real (.int v) =>
    match bits with
    | none => some (.int (-v - 1))
    | some w => some (.int ((-v - 1).emod (2 ^ w : Nat)))
  | _ => none

/-- An integer shifted left by a number of bits. -/
def shiftLeft (c : Const) (bits : Nat) : Option Const :=
  c.int?.map fun v => .int (v * (2 ^ bits : Nat))

/-- An integer shifted right by a number of bits, rounding toward minus infinity. -/
def shiftRight (c : Const) (bits : Nat) : Option Const :=
  c.int?.map fun v => .int (v.fdiv (2 ^ bits : Nat))

/-- The number of bits of an integer's magnitude. -/
def bitLength (v : Int) : Nat := if v = 0 then 0 else Nat.log2 v.natAbs + 1

/-- The real number a constant is, in a form other than that of integers. -/
def toReal? (c : Const) : Option Real :=
  match c.parts? with
  | some (re, im) => if im.isZero then some re.unwhole else none
  | none => none

/-- The integer a constant is. -/
def toInt? (c : Const) : Option Int :=
  match c with
  | .real r => r.toInt?
  | c => c.toReal?.bind Real.toInt?

/-- The constant is a number, and zero. -/
def isZero (c : Const) : Bool :=
  match c.parts? with
  | some (re, im) => re.isZero && im.isZero
  | none => false

end Const

end CaseCover
