import CaseCover.Proofs.Coverage.Difference

/-!
# What values denote

A value that comes from a constant denotes a string, a truth value or a complex number with rational
parts, whatever form the number is kept in. Numbers are compared in the richer of their forms, and to
get there a whole number or a fraction may be rounded to 512 digits. Where nothing is lost by this
(`ComparesExactly`), values are equal exactly if they denote the same (`same_iff_meaning`). So
equality is an equivalence on the values that come from constants, which never mixes strings, truth
values and numbers (`same_isPartialEquivalence`).
-/

namespace CaseCover

/-! ## Numbers of 512 digits -/

namespace Wide

theorem toRat_eq_zpow (w : Wide) : w.toRat = (w.significand : Rat) * (2 : Rat) ^ w.exponent := by
  obtain ⟨m, e⟩ := w
  cases e with
  | ofNat k =>
    show ((m * (2 ^ k : Nat) : Int) : Rat) = (m : Rat) * (2 : Rat) ^ (k : Int)
    rw [Rat.zpow_natCast]
    push_cast
    rfl
  | negSucc k =>
    show mkRat m (2 ^ (k + 1)) = (m : Rat) * ((2 : Rat) ^ (k + 1))⁻¹
    rw [Rat.mkRat_eq_div, Rat.div_def]
    push_cast
    rfl

/-- A number is a multiple of every power of two that is not above its exponent. -/
theorem toRat_eq_mul {w : Wide} {e : Int} (h : e ≤ w.exponent) :
    w.toRat = ((w.significand * (2 ^ (w.exponent - e).toNat : Nat) : Int) : Rat) * (2 : Rat) ^ e := by
  have hexp : w.exponent = ((w.exponent - e).toNat : Int) + e := by omega
  rw [toRat_eq_zpow]
  generalize (w.exponent - e).toNat = k at hexp ⊢
  rw [hexp, Rat.zpow_add (by decide), Rat.zpow_natCast, ← Rat.mul_assoc]
  push_cast
  rfl

/-- Numbers have the same value exactly if their significands agree at an exponent below both. -/
theorem toRat_eq_iff {a b : Wide} {e : Int} (ha : e ≤ a.exponent) (hb : e ≤ b.exponent) :
    a.toRat = b.toRat ↔
      a.significand * (2 ^ (a.exponent - e).toNat : Nat) =
        b.significand * (2 ^ (b.exponent - e).toNat : Nat) := by
  have hpos : (0 : Rat) < (2 : Rat) ^ e := Rat.zpow_pos (by decide)
  rw [toRat_eq_mul ha, toRat_eq_mul hb, ← Rat.intCast_inj]
  constructor
  · intro h
    have hcancel (x : Rat) : x * (2 : Rat) ^ e * ((2 : Rat) ^ e)⁻¹ = x := by
      rw [Rat.mul_assoc, Rat.mul_inv_cancel _ (Rat.ne_of_gt hpos), Rat.mul_one]
    rw [← hcancel (Int.cast (a.significand * _)), h, hcancel]
  · intro h
    rw [h]

/-- A whole number is told by its sign and its magnitude. -/
theorem eq_iff_sign_natAbs {x y : Int} : x = y ↔ x.sign = y.sign ∧ x.natAbs = y.natAbs := by
  constructor
  · rintro rfl
    exact ⟨rfl, rfl⟩
  · rintro ⟨hs, ha⟩
    rw [← Int.sign_mul_natAbs x, ← Int.sign_mul_natAbs y, hs, ha]

theorem sign_mul_two_pow (m : Int) (k : Nat) : (m * (2 ^ k : Nat)).sign = m.sign := by
  have hpos : 0 < ((2 ^ k : Nat) : Int) := Int.natCast_pos.mpr (Nat.two_pow_pos k)
  rw [Int.sign_mul, Int.sign_eq_one_of_pos hpos, Int.mul_one]

/-- Numbers have the same value exactly if they have one sign and their digits, aligned at an
exponent below both, agree. -/
theorem toRat_eq_iff_natAbs {a b : Wide} {e : Int} (ha : e ≤ a.exponent) (hb : e ≤ b.exponent) :
    a.toRat = b.toRat ↔
      a.significand.sign = b.significand.sign ∧
        a.significand.natAbs * 2 ^ (a.exponent - e).toNat =
          b.significand.natAbs * 2 ^ (b.exponent - e).toNat := by
  rw [toRat_eq_iff ha hb, eq_iff_sign_natAbs, sign_mul_two_pow, sign_mul_two_pow, Int.natAbs_mul,
    Int.natAbs_mul, Int.natAbs_natCast, Int.natAbs_natCast]

/-- Numbers with the same digits, once they are aligned, have their first digit at the same place. -/
theorem magnitude_eq_of_aligned {a b : Wide} {e : Int} (ha : e ≤ a.exponent) (hb : e ≤ b.exponent)
    (hane : a.significand ≠ 0) (hbne : b.significand ≠ 0)
    (h : a.significand.natAbs * 2 ^ (a.exponent - e).toNat =
      b.significand.natAbs * 2 ^ (b.exponent - e).toNat) : a.magnitude = b.magnitude := by
  have hdigits := congrArg digitCount h
  rw [digitCount_mul_two_pow (by omega), digitCount_mul_two_pow (by omega)] at hdigits
  unfold magnitude
  omega

/-- Comparing two numbers of 512 digits is comparing their values. -/
theorem order_eq_iff_toRat {a b : Wide} : a.order b = .eq ↔ a.toRat = b.toRat := by
  generalize he : min a.exponent b.exponent = e
  have hae : e ≤ a.exponent := by omega
  have hbe : e ≤ b.exponent := by omega
  rw [order_eq_iff, toRat_eq_iff_natAbs hae hbe, alignedTo_eq_iff hae hbe]
  refine and_congr_right fun hs => ?_
  constructor
  · rintro (hzero | ⟨-, haligned⟩)
    · have hzero' : b.significand = 0 := by
        rw [hzero] at hs
        exact Int.sign_eq_zero_iff_zero.mp hs.symm
      rw [hzero, hzero']
      simp
    · exact haligned
  · intro haligned
    by_cases hzero : a.significand = 0
    · exact .inl hzero
    · have hzero' : b.significand ≠ 0 := by
        intro h
        rw [h] at hs
        exact hzero (Int.sign_eq_zero_iff_zero.mp hs)
      exact .inr ⟨magnitude_eq_of_aligned hae hbe hzero hzero' haligned, haligned⟩

end Wide

/-! ## Reals -/

namespace Real

/-- Nothing is lost when two numbers are brought to the richer of their forms: they are kept exactly
both, or both stay the same with 512 digits. -/
def ComparesExactly (a b : Real) : Prop :=
  a.isExact = true ∧ b.isExact = true ∨ a.toWide.toRat = a.toRat ∧ b.toWide.toRat = b.toRat

/-- What is compared are the values of the numbers, which may have been rounded. -/
theorem same_iff_rounded {a b : Real} : a.same b = true ↔
    if a.isExact && b.isExact then a.toRat = b.toRat else a.toWide.toRat = b.toWide.toRat := by
  rw [same_iff, Wide.order_eq_iff_toRat]

theorem same_iff_of_comparesExactly {a b : Real} (h : a.ComparesExactly b) :
    a.same b = true ↔ a.toRat = b.toRat := by
  rw [same_iff_rounded]
  split
  · rfl
  · next hrounded =>
    rcases h with ⟨ha, hb⟩ | ⟨ha, hb⟩
    · rw [ha, hb] at hrounded
      exact absurd rfl hrounded
    · rw [ha, hb]

/-- A number that stays the same with 512 digits does so in any form. -/
theorem toRat_toWide_congr {a b : Real} (h : a.toRat = b.toRat) (ha : a.isExact = true)
    (hb : b.toWide.toRat = b.toRat) (hexact : b.isExact = true) : a.toWide.toRat = a.toRat := by
  rw [toWide_congr ha hexact h, hb, h]

/-- Numbers that are the same as a third one compare exactly if they both do so with it. -/
theorem ComparesExactly.trans {a b c : Real} (hab : a.ComparesExactly b)
    (hbc : b.ComparesExactly c) (h : a.toRat = b.toRat) (h' : b.toRat = c.toRat) :
    a.ComparesExactly c := by
  rcases hab with ⟨ha, hb⟩ | ⟨ha, hb⟩
  · rcases hbc with ⟨-, hc⟩ | ⟨hb', hc⟩
    · exact .inl ⟨ha, hc⟩
    · exact .inr ⟨toRat_toWide_congr h ha hb' hb, hc⟩
  · rcases hbc with ⟨hb', hc⟩ | ⟨-, hc⟩
    · exact .inr ⟨ha, toRat_toWide_congr h'.symm hc hb hb'⟩
    · exact .inr ⟨ha, hc⟩

end Real

/-! ## Constants -/

/-- What a constant denotes: a string, a truth value, or a complex number by its parts. -/
inductive Meaning where
  | text (s : Text)
  | truth (b : Bool)
  | number (re im : Rat)
deriving DecidableEq

/-- The families of constants, which are never equal to each other. -/
inductive Family where
  | text
  | truth
  | number
deriving DecidableEq

namespace Const

/-- What a constant denotes, in whatever form it is kept. -/
def meaning : Const → Meaning
  | .str s => .text s
  | .bool b => .truth b
  | .real r => .number r.toRat 0
  | .complex re im => .number re.toRat im.toRat

/-- The family of a constant. -/
def family : Const → Family
  | .str _ => .text
  | .bool _ => .truth
  | .real _ | .complex .. => .number

/-- Nothing is lost when two constants are compared part by part. -/
def ComparesExactly (a b : Const) : Prop :=
  ∀ p ∈ a.parts?, ∀ q ∈ b.parts?, p.1.ComparesExactly q.1 ∧ p.2.ComparesExactly q.2

theorem meaning_of_parts {a : Const} {p : Real × Real} (h : a.parts? = some p) :
    a.meaning = .number p.1.toRat p.2.toRat := by
  cases a with
  | real r =>
    cases h
    rfl
  | complex re im =>
    cases h
    rfl
  | _ => cases h

/-- Constants that compare exactly are the same if and only if they denote the same. -/
theorem same_iff_meaning {a b : Const} (h : a.ComparesExactly b) :
    a.same b = true ↔ a.meaning = b.meaning := by
  cases ha : a.parts? with
  | some p =>
    cases hb : b.parts? with
    | some q =>
      obtain ⟨hre, him⟩ := h p ha q hb
      rw [same_of_parts ha hb, meaning_of_parts ha, meaning_of_parts hb, Bool.and_eq_true,
        Real.same_iff_of_comparesExactly hre, Real.same_iff_of_comparesExactly him,
        Meaning.number.injEq]
    | none =>
      rw [(same_eq_false_of_parts ha hb).1, meaning_of_parts ha]
      cases b <;> simp [parts?, meaning] at hb ⊢
  | none =>
    cases hb : b.parts? with
    | some q =>
      rw [(same_eq_false_of_parts hb ha).2, meaning_of_parts hb]
      cases a <;> simp [parts?, meaning] at ha ⊢
    | none => cases a <;> cases b <;> simp [parts?, same, meaning] at ha hb ⊢

/-- Constants that are the same belong to one family, whether they are rounded or not. -/
theorem family_eq_of_same {a b : Const} (h : a.same b = true) : a.family = b.family := by
  cases a <;> cases b <;> simp [same, parts?, family] at h ⊢

theorem ComparesExactly.trans {a b c : Const} (hab : a.ComparesExactly b)
    (hbc : b.ComparesExactly c) (h : a.same b = true) (h' : b.same c = true) :
    a.ComparesExactly c := by
  intro p hp r hr
  have hm := (same_iff_meaning hab).mp h
  have hm' := (same_iff_meaning hbc).mp h'
  cases hb : b.parts? with
  | none =>
    -- a number is the same as numbers only
    rw [(same_eq_false_of_parts hp hb).1] at h
    cases h
  | some q =>
    rw [meaning_of_parts hp, meaning_of_parts hb, Meaning.number.injEq] at hm
    rw [meaning_of_parts hb, meaning_of_parts hr, Meaning.number.injEq] at hm'
    obtain ⟨hre, him⟩ := hab p hp q hb
    obtain ⟨hre', him'⟩ := hbc q hb r hr
    exact ⟨hre.trans hre' hm.1 hm'.1, him.trans him' hm.2 hm'.2⟩

end Const

/-! ## Values -/

namespace Value

/-- What a value denotes; the empty one denotes nothing. -/
def meaning? (v : Value) : Option Meaning := v.constant.map Const.meaning

/-- The family of a value; the empty one has none. -/
def family? (v : Value) : Option Family := v.constant.map Const.family

/-- Nothing is lost when the constants of two values are compared. -/
def ComparesExactly (v w : Value) : Prop :=
  ∀ a ∈ v.constant, ∀ b ∈ w.constant, a.ComparesExactly b

variable {u v w : Value}

/-- Values that compare exactly are the same if and only if they denote the same. -/
theorem same_iff_meaning (h : v.ComparesExactly w) :
    v.same w = true ↔ ∃ m, v.meaning? = some m ∧ w.meaning? = some m := by
  obtain ⟨_ | a⟩ := v
  · simp [same, meaning?]
  obtain ⟨_ | b⟩ := w
  · simp [same, meaning?]
  have hsame : same ⟨some a⟩ ⟨some b⟩ = a.same b := rfl
  rw [hsame, Const.same_iff_meaning (h a rfl b rfl)]
  simp [meaning?, eq_comm]

/-- An equality that goes by what values denote and belongs to one family each. -/
structure IsPartialEquivalence (u v w : Value) : Prop where
  /-- Values are equal if and only if both denote something, and the same. -/
  same_iff : u.same v = true ↔ ∃ m, u.meaning? = some m ∧ v.meaning? = some m
  symm : u.same v = v.same u
  trans : u.same v = true → v.same w = true → u.same w = true
  /-- A value equals itself if and only if it comes from a constant. -/
  refl_iff : u.same u = true ↔ u.IsProper
  /-- Equal values belong to the same family. -/
  family : u.same v = true → u.family? = v.family? ∧ u.family?.isSome = true
  /-- The empty value equals nothing. -/
  empty : Value.empty.same u = false ∧ u.same Value.empty = false

theorem same_trans_of_comparesExactly (huv : u.ComparesExactly v) (hvw : v.ComparesExactly w)
    (h : u.same v = true) (h' : v.same w = true) : u.same w = true := by
  obtain ⟨_ | a⟩ := u
  · cases h
  obtain ⟨_ | b⟩ := v
  · cases h
  obtain ⟨_ | c⟩ := w
  · cases h'
  have hab := huv a rfl b rfl
  have hbc := hvw b rfl c rfl
  refine (Const.same_iff_meaning (hab.trans hbc h h')).mpr ?_
  exact ((Const.same_iff_meaning hab).mp h).trans ((Const.same_iff_meaning hbc).mp h')

theorem family_of_same (h : u.same v = true) :
    u.family? = v.family? ∧ u.family?.isSome = true := by
  obtain ⟨_ | a⟩ := u
  · cases h
  obtain ⟨_ | b⟩ := v
  · cases h
  exact ⟨congrArg some (Const.family_eq_of_same h), rfl⟩

theorem same_self_iff : u.same u = true ↔ u.IsProper := by
  constructor
  · intro h
    obtain ⟨_ | a⟩ := u
    · cases h
    · exact ⟨a, rfl⟩
  · exact same_self

/-- Where comparing loses nothing, equality of values is equality of what they denote. -/
theorem same_isPartialEquivalence (huv : u.ComparesExactly v) (hvw : v.ComparesExactly w) :
    IsPartialEquivalence u v w where
  same_iff := same_iff_meaning huv
  symm := same_comm u v
  trans := same_trans_of_comparesExactly huv hvw
  refl_iff := same_self_iff
  family := family_of_same
  empty := by
    refine ⟨rfl, ?_⟩
    rw [same_comm]
    rfl

/-- A power of two as a whole number, with 512 digits, and as a complex number. -/
theorem same_evenPower_isPartialEquivalence :
    evenPower.ComparesExactly roundedPower ∧
      roundedPower.ComparesExactly (.of (.complex (.wide ⟨1, 5000⟩) (.int 0))) ∧
      evenPower.same roundedPower = true ∧
      IsPartialEquivalence evenPower roundedPower
        (.of (.complex (.wide ⟨1, 5000⟩) (.int 0))) := by
  have hpower : (Real.int (2 ^ 5000)).ComparesExactly (.wide ⟨1, 5000⟩) := by
    refine .inr ⟨?_, rfl⟩
    decide +kernel
  have hzero : (Real.int 0).ComparesExactly (.int 0) := .inl ⟨rfl, rfl⟩
  have hself : (Real.wide ⟨1, 5000⟩).ComparesExactly (.wide ⟨1, 5000⟩) := .inr ⟨rfl, rfl⟩
  have hfirst : evenPower.ComparesExactly roundedPower := by
    rintro _ ⟨⟩ _ ⟨⟩ _ ⟨⟩ _ ⟨⟩
    exact ⟨hpower, hzero⟩
  have hsecond :
      roundedPower.ComparesExactly (.of (.complex (.wide ⟨1, 5000⟩) (.int 0))) := by
    rintro _ ⟨⟩ _ ⟨⟩ _ ⟨⟩ _ ⟨⟩
    exact ⟨hself, hzero⟩
  exact ⟨hfirst, hsecond, by decide +kernel, same_isPartialEquivalence hfirst hsecond⟩

end Value

end CaseCover
