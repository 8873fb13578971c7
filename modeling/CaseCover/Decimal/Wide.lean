import CaseCover.Decimal.Binary

/-!
# Numbers of 512 binary digits

Numbers too large or too fine to be kept as fractions are kept with 512 significant binary digits.
Sums, products and quotients are computed exactly and then rounded: to the nearest such number, and
to the one with an even last digit when two are equally near. The exponent is bounded, so a result
may be infinite (`none`) or vanish.
-/

namespace CaseCover

/-- The number `significand * 2 ^ exponent`. The significand is odd, or zero with exponent zero, so
that equal numbers are equal structures. -/
structure Wide where
  significand : Int
  exponent : Int
deriving DecidableEq

namespace Wide

/-- The number of significant binary digits. -/
def precision : Nat := 512

/-- The bound on exponents: numbers from `2 ^ exponentBound` on are infinite. -/
def exponentBound : Int := 2 ^ 31 - 1

/-- The number of binary digits of a natural number. -/
def digitCount (n : Nat) : Nat := if n = 0 then 0 else Nat.log2 n + 1

/-- `m * 2 ^ e` with an odd significand. -/
def normal (m e : Int) : Wide :=
  if m = 0 then ⟨0, 0⟩
  else
    let n := m.natAbs
    let zeros := Nat.log2 (n ^^^ (n - 1))
    ⟨m / (2 ^ zeros : Nat), e + zeros⟩

def zero : Wide := ⟨0, 0⟩

/-- The least `k` with `|w| < 2 ^ k`, for a number other than zero. -/
def magnitude (w : Wide) : Int := w.exponent + digitCount w.significand.natAbs

/-- The ways of rounding a magnitude between two neighbours. -/
inductive Rounding where
  | nearest
  | towardZero
  | awayFromZero
deriving DecidableEq

/-- The quotient of `n` by `2 ^ drop`, rounded; `more` tells that something positive, less than one
unit of `n`, has been left out. -/
def dropDigits (mode : Rounding) (n drop : Nat) (more : Bool) : Nat :=
  let q := n >>> drop
  let r := n - (q <<< drop)
  let half := 1 <<< drop
  let up :=
    match mode with
    | .towardZero => false
    | .awayFromZero => r ≠ 0 || more
    | .nearest => half < 2 * r || (2 * r == half && (more || q % 2 == 1))
  if up then q + 1 else q

/-- `m * 2 ^ e` rounded to so many digits; `more` tells that something has been left out below. -/
def roundTo (mode : Rounding) (digits : Nat) (m e : Int) (more : Bool) : Wide :=
  let n := m.natAbs
  let count := digitCount n
  if count ≤ digits then normal m e
  else
    let drop := count - digits
    let q : Int := dropDigits mode n drop more
    normal (if m < 0 then -q else q) (e + drop)

/-- A number whose exponent is in bounds: it may be infinite or vanish. -/
def bounded (w : Wide) : Option Wide :=
  if w.significand = 0 then some zero
  else if exponentBound < w.magnitude then none
  else if w.magnitude < -exponentBound - 1 then some zero
  else some w

/-- The nearest number of 512 digits. -/
def ofInt (v : Int) : Wide := roundTo .nearest precision v 0 false

/-- The quotient of two numbers rounded to so many digits. The divisor must not be zero. -/
def quoTo (digits : Nat) (a b : Wide) : Wide :=
  let n := a.significand.natAbs
  let d := b.significand.natAbs
  let shift := digits + 2 + digitCount d - min (digitCount n) (digits + 2 + digitCount d)
  let n' := n <<< shift
  let q : Int := n' / d
  let negative := (a.significand < 0) != (b.significand < 0)
  roundTo .nearest digits (if negative then -q else q) (a.exponent - b.exponent - shift)
    (n' % d ≠ 0)

/-- The nearest number of 512 digits to a fraction. -/
def ofRat (q : Rat) : Wide := quoTo precision (normal q.num 0) (normal q.den 0)

/-- The product of two numbers rounded to so many digits. -/
def mulTo (digits : Nat) (a b : Wide) : Wide :=
  roundTo .nearest digits (a.significand * b.significand) (a.exponent + b.exponent) false

/-- How far apart the exponents of two summands can be before the smaller one only tells on which
side of the larger one the sum lies. -/
def sumWindow : Int := 4 * precision

/-- The sum of two numbers. -/
def sum (a b : Wide) : Wide :=
  let exact := fun (x y : Wide) =>
    let e := min x.exponent y.exponent
    let aligned := fun (w : Wide) => w.significand * (2 ^ (w.exponent - e).toNat : Nat)
    roundTo .nearest precision (aligned x + aligned y) e false
  let trace := fun (x y : Wide) =>
    (⟨if y.significand < 0 then -1 else 1, x.exponent - sumWindow⟩ : Wide)
  if a.significand = 0 then b
  else if b.significand = 0 then a
  else if b.magnitude + sumWindow < a.exponent then exact a (trace a b)
  else if a.magnitude + sumWindow < b.exponent then exact b (trace b a)
  else exact a b

def neg (a : Wide) : Wide := ⟨-a.significand, a.exponent⟩

def add (a b : Wide) : Option Wide := bounded (sum a b)

def sub (a b : Wide) : Option Wide := bounded (sum a b.neg)

def mul (a b : Wide) : Option Wide := bounded (mulTo precision a b)

def quo (a b : Wide) : Option Wide := bounded (quoTo precision a b)

/-- How two numbers compare. -/
def order (a b : Wide) : Ordering :=
  let positive := fun (x y : Wide) =>
    if x.magnitude ≠ y.magnitude then compare x.magnitude y.magnitude
    else
      let e := min x.exponent y.exponent
      let aligned := fun (w : Wide) => w.significand.natAbs * 2 ^ (w.exponent - e).toNat
      compare (aligned x) (aligned y)
  match compare a.significand.sign b.significand.sign with
  | .eq =>
    if a.significand = 0 then .eq
    else if 0 < a.significand then positive a b
    else positive b a
  | o => o

/-- The exact value. -/
def toRat (w : Wide) : Rat :=
  match w.exponent with
  | .ofNat k => ((w.significand * (2 ^ k : Nat) : Int) : Rat)
  | .negSucc k => mkRat w.significand (2 ^ (k + 1))

/-- Powers of five rounded to so many digits, by repeated squaring with more digits: `square` is
`5 ^ (2 ^ i)` in the `i`-th step. -/
def powerOfFiveFrom (digits : Nat) : Nat → Wide → Wide → Nat → Wide
  | 0, acc, _, _ => acc
  | fuel + 1, acc, square, n =>
    if n = 0 then acc
    else
      let acc := if n % 2 = 1 then mulTo digits acc square else acc
      powerOfFiveFrom digits fuel acc (mulTo (digits + 64) square square) (n / 2)

/-- `5 ^ n` rounded to so many digits. The first 27 factors are exact. -/
def powerOfFive (digits n : Nat) : Wide :=
  if n ≤ 27 then normal (5 ^ n : Nat) 0
  else powerOfFiveFrom digits (Nat.log2 n + 1) (normal (5 ^ 27 : Nat) 0) (normal 5 0) (n - 27)

/-- `m * 2 ^ twos * 5 ^ fives`, rounded; none when it is infinite. -/
def scaled (m twos fives : Int) : Option Wide :=
  let w := normal m twos
  match fives with
  | .ofNat 0 => bounded (roundTo .nearest precision m twos false)
  | .ofNat k => bounded (mulTo precision w (powerOfFive (precision + 64) k))
  | .negSucc k => bounded (quoTo precision w (powerOfFive (precision + 64) (k + 1)))

/-- The exponents between which a number can be turned into a fraction of moderate size. -/
def isModerate (w : Wide) : Bool :=
  w.significand = 0 || (-4096 < w.magnitude && w.magnitude < 4096)

/-- The number is whole. -/
def isWhole (w : Wide) : Bool := 0 ≤ w.exponent

/-- The whole number that a number of moderate size is or nearly is: itself, or what the last four
digits more or less make of it. -/
def nearlyInt? (w : Wide) : Option Int :=
  let whole := fun (x : Wide) =>
    if x.isWhole then some (x.significand * (2 ^ x.exponent.toNat : Nat)) else none
  let nudged := fun (mode : Rounding) => roundTo mode (precision - 4) w.significand w.exponent false
  if !w.isModerate then none
  else ((whole w).or (whole (nudged .towardZero))).or (whole (nudged .awayFromZero))

/-- The number of a binary format nearest to the magnitude; none when it is infinite. -/
def nearestIn (f : BinaryFormat) (w : Wide) : Option Binary :=
  if w.significand = 0 then some ⟨0, f.minExponent⟩
  else if (f.limit : Int) < w.magnitude then none
  else if w.magnitude < f.minExponent - 1 then some ⟨0, f.minExponent⟩
  else
    let q := w.toRat
    f.nearest q.num.natAbs q.den

end Wide

end CaseCover
