import CaseCover.Source.Constraint

/-!
# Versions of the language

A version has a major and a minor number, then a patch number or a stage before the release, such as
`1.21.3` or `1.22rc1`. From `1.21` on, a version without a patch number comes before its stages, and
these before its first patch; before `1.21` no patch number means the first patch.
-/

namespace CaseCover

/-- A version of the language. -/
structure LanguageVersion where
  major : Nat
  minor : Nat
  patch : Option Nat
  stage : Text
  stageNumber : Nat
deriving DecidableEq

namespace LanguageVersion

/-- The version that is at hand. -/
def current : LanguageVersion := ⟨1, 22, some 2, [], 0⟩

/-- A number without superfluous zeros, and what follows it. -/
def number? (t : Text) : Option (Nat × Text) :=
  let ds := t.takeWhile Text.isDigit
  if 1 < ds.length && ds.head? == some 0x30 then none
  else (Text.toNat? 10 ds).map fun n => (n, t.drop ds.length)

/-- The number after a point, if there is a point. -/
def pointed? (t : Text) : Option (Option Nat × Text) :=
  match t with
  | 0x2E :: rest => (number? rest).map fun (n, rest) => (some n, rest)
  | t => some (none, t)

/-- A small letter. -/
def isStageByte (b : UInt8) : Bool := 0x61 ≤ b && b ≤ 0x7A

/-- The version that a text is. -/
def parse? (t : Text) : Option LanguageVersion := do
  let (major, t) ← number? t
  if major == 0 then none
  let (minor?, t) ← pointed? t
  let minor ← minor?
  let (patch, t) ← pointed? t
  if t.isEmpty then
    return ⟨major, minor, if minor < 21 && patch.isNone then some 0 else patch, [], 0⟩
  let stage := t.takeWhile isStageByte
  let digits := t.drop stage.length
  if stage.isEmpty || digits.isEmpty || !digits.all Text.isDigit then none
  return ⟨major, minor, patch, stage, (Text.toNat? 10 digits).getD 0⟩

/-- Only a version without a patch number has stages. -/
def isProper (v : LanguageVersion) : Bool := v.stage.isEmpty || v.patch.isNone

/-- Numbers in the order of versions; a missing one comes first. -/
def patchOrder (p : Option Nat) : Nat := (p.map (· + 1)).getD 0

/-- A version comes after another one. -/
def isAfter (v w : LanguageVersion) : Bool :=
  let key := fun (x : LanguageVersion) => [x.major, x.minor, patchOrder x.patch]
  if key v != key w then key w < key v
  else if v.stage != w.stage then Text.less w.stage v.stage
  else w.stageNumber < v.stageNumber

/-- The release of the language that a version belongs to. -/
def release (v : LanguageVersion) : Constraint.Release := if v.major == 1 then v.minor else 0

/-- The text of a version. -/
def text (v : LanguageVersion) : Text :=
  Text.ofNat v.major ++ utf8 "." ++ Text.ofNat v.minor ++
    (match v.patch with
     | some p => utf8 "." ++ Text.ofNat p
     | none => []) ++
    (if v.stage.isEmpty then [] else v.stage ++ Text.ofNat v.stageNumber)

end LanguageVersion

end CaseCover
