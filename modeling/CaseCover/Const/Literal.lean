import CaseCover.Const

/-!
# Literals

The constants that literals in a program denote. Numbers may have a base mark (`0b`, `0o`, `0x`),
underscores between digits and, for fractions, a point and a decimal or binary exponent.
-/

namespace CaseCover.Const

/-- The kinds of literals. -/
inductive LiteralKind where
  | int | float | imag | char | string
deriving DecidableEq

/-! ## Numbers -/

/-- The base a mark after a leading zero stands for. -/
def markedBase (b : UInt8) : Option Nat :=
  if b == 0x78 || b == 0x58 then some 16
  else if b == 0x6F || b == 0x4F then some 8
  else if b == 0x62 || b == 0x42 then some 2
  else none

/-- The digits of a run without its underscores. Each underscore must stand between two digits, or
between a base mark and a digit; `afterDigit` tells whether one may come next. -/
def dropUnderscores : Bool → Text → Option Text
  | afterDigit, [] => if afterDigit then some [] else none
  | afterDigit, b :: rest =>
    if b == 0x5F then
      match afterDigit, rest with
      | true, c :: _ => if c == 0x5F then none else dropUnderscores false rest
      | _, _ => none
    else (dropUnderscores true rest).map (b :: ·)

/-- Splits a sign off a text. -/
def splitSign : Text → Bool × Text
  | 0x2D :: rest => (true, rest)
  | 0x2B :: rest => (false, rest)
  | t => (false, t)

/-- The digits of a run, which may be empty, as a number. -/
def digitsValue (base : Nat) (t : Text) : Option Nat := if t.isEmpty then some 0 else Text.toNat? base t

/-- The value of an integer literal. A leading zero alone marks base eight. -/
def intLiteral (t : Text) : Option Int := do
  let (negative, t) := splitSign t
  let n ←
    match t with
    | [0x30] => some 0
    | 0x30 :: b :: rest =>
      match markedBase b with
      | some base => do Text.toNat? base (← dropUnderscores true rest)
      | none => do Text.toNat? 8 (← dropUnderscores true (b :: rest))
    | t => do Text.toNat? 10 (← dropUnderscores false t)
  if negative then some (-(n : Int)) else some n

/-- The bytes before and from the first byte that satisfies `p`. -/
def splitWhere (p : UInt8 → Bool) (t : Text) : Text × Text :=
  (t.takeWhile fun b => !p b, t.dropWhile fun b => !p b)

/-- The exponent after its mark: a sign and digits. -/
def exponentValue (t : Text) : Option Int := do
  let (negative, ds) := splitSign t
  let n ← Text.toNat? 10 (← dropUnderscores false ds)
  if negative then some (-(n : Int)) else some n

/-- The digits of a literal with a point or an exponent: the number `digits * 2 ^ twos * 5 ^ fives`,
or its negative. -/
structure Scaled where
  negative : Bool
  digits : Nat
  twos : Int
  fives : Int

/-- The binary digits of a digit in a base with a mark. -/
def digitWidth (base : Nat) : Nat := if base = 16 then 4 else if base = 8 then 3 else 1

/-- Reads a literal with a point or an exponent. A leading zero alone does not change the base
here. -/
def scaledLiteral (t : Text) : Option Scaled := do
  let (negative, t) := splitSign t
  let (base, marked, body) :=
    match t with
    | 0x30 :: b :: rest =>
      match markedBase b with
      | some base => (base, true, rest)
      | none => (10, false, t)
    | t => (10, false, t)
  let isMark := fun (b : UInt8) =>
    b == 0x70 || b == 0x50 || (base ≠ 16 && (b == 0x65 || b == 0x45))
  let (mantissa, tail) := splitWhere isMark body
  let (whole, point) := splitWhere (· == 0x2E) mantissa
  let fraction := point.drop 1
  if whole.isEmpty && fraction.isEmpty then none
  let whole ← if whole.isEmpty then some [] else dropUnderscores marked whole
  let fraction ← if fraction.isEmpty then some [] else dropUnderscores false fraction
  let w ← digitsValue base whole
  let f ← digitsValue base fraction
  let places : Int := fraction.length
  let digits := w * base ^ fraction.length + f
  let (twos, fives) : Int × Int :=
    if base = 10 then (-places, -places) else (-(places * digitWidth base), 0)
  match tail with
  | [] => some ⟨negative, digits, twos, fives⟩
  | mark :: e => do
    let e ← exponentValue e
    if e < -(2 ^ 63 : Nat) || (2 ^ 63 : Nat) ≤ e then none
    else if mark == 0x70 || mark == 0x50 then some ⟨negative, digits, twos + e, fives⟩
    else some ⟨negative, digits, twos + e, fives + e⟩

/-- `base ^ e`. -/
def power (base : Nat) : Int → Rat
  | .ofNat k => ((base ^ k : Nat) : Rat)
  | .negSucc k => 1 / ((base ^ (k + 1) : Nat) : Rat)

/-- The value of a literal with a point or an exponent: a fraction unless its size is extreme. -/
def Scaled.value (s : Scaled) : Option Real :=
  let m : Int := if s.negative then -s.digits else s.digits
  let magnitude := s.twos + Wide.digitCount s.digits
  if s.digits = 0 then some (.frac 0)
  else if magnitude < -Wide.exponentBound - 1 || Wide.exponentBound < magnitude then none
  else do
    let w ← Wide.scaled m s.twos s.fives
    if w.significand = 0 then return .frac 0
    if w.isModerate then return .frac ((m : Rat) * power 2 s.twos * power 5 s.fives)
    return .wide w

/-- The value of a literal with a point or an exponent. -/
def floatLiteral (t : Text) : Option Real := (scaledLiteral t).bind Scaled.value

/-! ## Characters and strings -/

/-- The control character behind a letter escape. -/
def escapeValue (b : UInt8) : Option Nat :=
  if b == 0x61 then some 7
  else if b == 0x62 then some 8
  else if b == 0x66 then some 12
  else if b == 0x6E then some 10
  else if b == 0x72 then some 13
  else if b == 0x74 then some 9
  else if b == 0x76 then some 11
  else none

/-- A character of a literal: a code point, or a single byte given by number. -/
inductive Glyph where
  | code (n : Nat)
  | byte (n : Nat)
deriving DecidableEq

/-- The number a unit denotes. -/
def Glyph.value : Glyph → Nat
  | .code n => n
  | .byte n => n

/-- The bytes a unit stands for in a string. -/
def Glyph.bytes : Glyph → Text
  | .code n => Text.ofCode n
  | .byte n => [UInt8.ofNat n]

/-- The number of `count` digits at the start of a text, and the rest. -/
def takeDigits (base count : Nat) (t : Text) : Option (Nat × Text) :=
  if t.length < count then none
  else (Text.toNat? base (t.take count)).map fun n => (n, t.drop count)

/-- The escape after a backslash, inside the given quote, and the rest. -/
def escapeUnit (quote : UInt8) : Text → Option (Glyph × Text)
  | [] => none
  | b :: rest =>
    match escapeValue b with
    | some n => some (.byte n, rest)
    | none =>
      if b == 0x78 then (takeDigits 16 2 rest).map fun (n, r) => (.byte n, r)
      else if b == 0x75 || b == 0x55 then
        match takeDigits 16 (if b == 0x75 then 4 else 8) rest with
        | some (n, r) => if n.isValidChar then some (.code n, r) else none
        | none => none
      else if 0x30 ≤ b && b ≤ 0x37 then
        match takeDigits 8 3 (b :: rest) with
        | some (n, r) => if n ≤ 255 then some (.byte n, r) else none
        | none => none
      else if b == 0x5C then some (.byte 0x5C, rest)
      else if (b == 0x27 || b == 0x22) && b == quote then some (.byte b.toNat, rest)
      else none

/-- The first character of a literal's body, inside the given quote, and the rest. -/
def firstUnit (quote : UInt8) : Text → Option (Glyph × Text)
  | [] => none
  | b :: rest =>
    if b == quote then none
    else if b == 0x5C then escapeUnit quote rest
    else
      let c := Text.leading b rest
      some (.code c.code, rest.drop (c.bytes.length - 1))

/-- All characters of a literal's body; a line break is refused. -/
def unitsOf (quote : UInt8) : Nat → Text → Option (List Glyph)
  | _, [] => some []
  | 0, _ :: _ => none
  | fuel + 1, b :: rest =>
    if b == 0x0A then none
    else do
      let (u, more) ← firstUnit quote (b :: rest)
      let us ← unitsOf quote fuel more
      some (u :: us)

/-- The text between the quotes of a string literal. -/
def stringLiteral (t : Text) : Option Text :=
  match t with
  | [] => none
  | [_] => none
  | q :: rest =>
    if rest.getLast? ≠ some q then none
    else
      let body := rest.dropLast
      if q == 0x60 then
        if body.contains 0x60 then none else some (body.filter (· ≠ 0x0D))
      else if q == 0x22 then (unitsOf q body.length body).map fun us => us.flatMap Glyph.bytes
      else if q == 0x27 then
        match unitsOf q body.length body with
        | some [u] => some u.bytes
        | _ => none
      else none

/-- The code of a character literal: its quotes are dropped and the first character counts. -/
def charLiteral (t : Text) : Option Nat :=
  if t.length < 2 then none
  else (firstUnit 0x27 (t.drop 1).dropLast).map fun p => p.1.value

/-- The constant a literal denotes; none when it is malformed. -/
def ofLiteral (kind : LiteralKind) (t : Text) : Option Const :=
  match kind with
  | .int => (intLiteral t).map .int
  | .float => (floatLiteral t).map .real
  | .imag =>
    if t.getLast? = some 0x69 then
      (floatLiteral t.dropLast).map fun r => .complex (.int 0) r
    else none
  | .char => (charLiteral t).map fun n => .int n
  | .string => (stringLiteral t).map .str

end CaseCover.Const
