import CaseCover.Text

/-!
# Points in time

A configuration may hold dates, and dates with a time of day. Year, month and day are separated by
dashes; the time follows a `T` with a zone, or spaces without one. Apart from the year, numbers may
have one digit or two.
-/

namespace CaseCover

/-- A point in time, as the clock of its zone shows it. The zone is given by its distance from
universal time in minutes. -/
structure Timestamp where
  year : Nat
  month : Nat
  day : Nat
  hour : Nat
  minute : Nat
  second : Nat
  nanos : Nat
  zone : Int
deriving DecidableEq

namespace Timestamp

/-- The number of days of a month. -/
def daysIn (year month : Nat) : Nat :=
  if month == 2 then
    if year % 4 == 0 && (year % 100 ≠ 0 || year % 400 == 0) then 29 else 28
  else if month == 4 || month == 6 || month == 9 || month == 11 then 30
  else 31

/-- A number of one or two digits, and the rest. -/
def shortNumber (t : Text) : Option (Nat × Text) :=
  let ds := (t.take 2).takeWhile Text.isDigit
  (Text.toNat? 10 ds).map fun n => (n, t.drop ds.length)

/-- The rest after a byte. -/
def after (b : UInt8) (t : Text) : Option Text :=
  match t with
  | c :: rest => if c == b then some rest else none
  | [] => none

/-- A fraction of a second in billionths, and the rest. Digits past the ninth are dropped. -/
def fraction (t : Text) : Nat × Text :=
  match t with
  | p :: rest =>
    let ds := rest.takeWhile Text.isDigit
    if (p == 0x2E || p == 0x2C) && !ds.isEmpty then
      let nine := (ds ++ Text.repeated 9 0x30).take 9
      ((Text.toNat? 10 nine).getD 0, rest.drop ds.length)
    else (0, t)
  | [] => (0, [])

/-- A distance from universal time: `Z`, or a sign with any two digits of hours and of minutes. -/
def zoneOf (t : Text) : Option Int :=
  match t with
  | [0x5A] => some 0
  | [s, h, h', 0x3A, m, m'] => do
    let hours ← Text.toNat? 10 [h, h']
    let minutes ← Text.toNat? 10 [m, m']
    if s == 0x2B then some (hours * 60 + minutes : Nat)
    else if s == 0x2D then some (-(hours * 60 + minutes : Nat))
    else none
  | _ => none

/-- The time of day: hour, minute, second and billionths, and the rest. -/
def clock (t : Text) : Option (Nat × Nat × Nat × Nat × Text) := do
  let (h, t) ← shortNumber t
  let t ← after 0x3A t
  let (m, t) ← shortNumber t
  let t ← after 0x3A t
  let (s, t) ← shortNumber t
  if 24 ≤ h || 60 ≤ m || 60 ≤ s then none
  let (n, t) := fraction t
  return (h, m, s, n, t)

/-- Reads a point in time. -/
def parse? (t : Text) : Option Timestamp := do
  let ys := t.takeWhile Text.isDigit
  if ys.length ≠ 4 then none
  let year ← Text.toNat? 10 ys
  let t ← after 0x2D (t.drop 4)
  let (month, t) ← shortNumber t
  let t ← after 0x2D t
  let (day, t) ← shortNumber t
  if month == 0 || 12 < month || day == 0 || daysIn year month < day then none
  match t with
  | [] => return ⟨year, month, day, 0, 0, 0, 0, 0⟩
  | b :: rest =>
    if b == 0x54 || b == 0x74 then
      let (h, m, s, n, t) ← clock rest
      let zone ← zoneOf t
      return ⟨year, month, day, h, m, s, n, zone⟩
    else if b == 0x20 then
      let (h, m, s, n, t) ← clock (rest.dropWhile (· == 0x20))
      if t.isEmpty then return ⟨year, month, day, h, m, s, n, 0⟩ else none
    else none

/-- Decimal digits, filled up with zeros to a width. -/
def padded (width n : Nat) : Text :=
  let ds := Text.ofNat n
  Text.repeated (width - ds.length) 0x30 ++ ds

/-- Year, month and day. -/
def date (t : Timestamp) : Text :=
  padded 4 t.year ++ utf8 "-" ++ padded 2 t.month ++ utf8 "-" ++ padded 2 t.day

/-- Hour, minute and second. -/
def timeOfDay (t : Timestamp) : Text :=
  padded 2 t.hour ++ utf8 ":" ++ padded 2 t.minute ++ utf8 ":" ++ padded 2 t.second

/-- The zone as a sign with hours and minutes. -/
def zoneText (sep : Text) (t : Timestamp) : Text :=
  let m := t.zone.natAbs
  (if t.zone < 0 then utf8 "-" else utf8 "+") ++ padded 2 (m / 60) ++ sep ++ padded 2 (m % 60)

/-- The fraction of a second without zeros at its end, if there is one. -/
def fractionText (t : Timestamp) : Text :=
  let digits := ((padded 9 t.nanos).reverse.dropWhile (· == 0x30)).reverse
  if digits.isEmpty then [] else 0x2E :: digits

/-- The text with a `T` before the time and the zone after it. -/
def text (t : Timestamp) : Text :=
  t.date ++ utf8 "T" ++ t.timeOfDay ++ t.fractionText ++
    (if t.zone == 0 then utf8 "Z" else t.zoneText ":")

/-- The text with spaces and with the name of the zone, for which its distance stands where it has
none. -/
def longText (t : Timestamp) : Text :=
  let zone := t.zoneText []
  t.date ++ utf8 " " ++ t.timeOfDay ++ t.fractionText ++ utf8 " " ++ zone ++ utf8 " " ++
    (if t.zone == 0 then utf8 "UTC" else zone)

end Timestamp

end CaseCover
