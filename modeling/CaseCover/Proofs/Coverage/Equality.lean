import CaseCover.Coverage.Value
import CaseCover.Proofs.Decimal.Rounding

/-!
# Equality of values

Equality of values is symmetric, and a value that comes from a constant equals itself. It is not
transitive: a number of 512 digits equals every integer that rounds to it. Two values that equal a
third one are equal to each other as soon as the third one is kept exactly (`Value.same_trans`).
-/

namespace CaseCover

/-! ## Numbers of 512 digits -/

namespace Wide

/-- The significand of a number, moved to the lower of two exponents. -/
def alignedTo (a b : Wide) : Nat :=
  a.significand.natAbs * 2 ^ (a.exponent - min a.exponent b.exponent).toNat

theorem order_eq_iff {a b : Wide} : a.order b = .eq ↔
    a.significand.sign = b.significand.sign ∧
      (a.significand = 0 ∨ a.magnitude = b.magnitude ∧ a.alignedTo b = b.alignedTo a) := by
  have hpositive (x y : Wide) :
      (if x.magnitude ≠ y.magnitude then compare x.magnitude y.magnitude
        else compare (x.significand.natAbs * 2 ^ (x.exponent - min x.exponent y.exponent).toNat)
          (y.significand.natAbs * 2 ^ (y.exponent - min x.exponent y.exponent).toNat)) = .eq ↔
        x.magnitude = y.magnitude ∧ x.alignedTo y = y.alignedTo x := by
    unfold alignedTo
    rw [Int.min_comm y.exponent x.exponent]
    by_cases h : x.magnitude = y.magnitude
    · simp [h, Std.LawfulEqCmp.compare_eq_iff_eq]
    · simp [h, Std.LawfulEqCmp.compare_eq_iff_eq]
  unfold order
  simp only
  split
  · next hs =>
    rw [Std.LawfulEqCmp.compare_eq_iff_eq] at hs
    rw [and_iff_right hs]
    by_cases hzero : a.significand = 0
    · rw [if_pos hzero]
      simp only [hzero, true_or]
    rw [if_neg hzero]
    by_cases hpos : 0 < a.significand
    · rw [if_pos hpos, hpositive a b]
      simp only [hzero, false_or]
    · -- below zero the sides change places
      rw [if_neg hpos, hpositive b a]
      simp only [hzero, false_or, eq_comm]
  · next hs =>
    have hne : a.significand.sign ≠ b.significand.sign := by
      intro h
      exact hs (Std.LawfulEqCmp.compare_eq_iff_eq.mpr h)
    simp only [Std.LawfulEqCmp.compare_eq_iff_eq, hne, false_and]

theorem order_self (a : Wide) : a.order a = .eq :=
  order_eq_iff.mpr ⟨rfl, Or.inr ⟨rfl, rfl⟩⟩

theorem order_eq_comm (a b : Wide) : a.order b = .eq ↔ b.order a = .eq := by
  have hswap (x y : Wide) (h : x.order y = .eq) : y.order x = .eq := by
    obtain ⟨hs, hrest⟩ := order_eq_iff.mp h
    refine order_eq_iff.mpr ⟨hs.symm, ?_⟩
    rcases hrest with hzero | ⟨hm, ha⟩
    · left
      rw [hzero] at hs
      exact Int.sign_eq_zero_iff_zero.mp hs.symm
    · exact Or.inr ⟨hm.symm, ha.symm⟩
  exact ⟨hswap a b, hswap b a⟩

/-- Aligned significands agree exactly when they agree at any exponent below both. -/
theorem alignedTo_eq_iff {a b : Wide} {e : Int} (ha : e ≤ a.exponent) (hb : e ≤ b.exponent) :
    a.alignedTo b = b.alignedTo a ↔
      a.significand.natAbs * 2 ^ (a.exponent - e).toNat =
        b.significand.natAbs * 2 ^ (b.exponent - e).toNat := by
  unfold alignedTo
  rw [Int.min_comm b.exponent a.exponent]
  generalize hlow : min a.exponent b.exponent = low
  have hshift (x : Int) (hx : low ≤ x) :
      (x - e).toNat = (x - low).toNat + (low - e).toNat := by omega
  rw [hshift a.exponent (by omega), hshift b.exponent (by omega), Nat.pow_add, Nat.pow_add,
    ← Nat.mul_assoc, ← Nat.mul_assoc]
  exact (Nat.mul_right_cancel_iff (Nat.two_pow_pos _)).symm

theorem order_eq_trans {a b c : Wide} (hab : a.order b = .eq) (hbc : b.order c = .eq) :
    a.order c = .eq := by
  obtain ⟨hs, hab⟩ := order_eq_iff.mp hab
  obtain ⟨ht, hbc⟩ := order_eq_iff.mp hbc
  refine order_eq_iff.mpr ⟨hs.trans ht, ?_⟩
  by_cases hzero : a.significand = 0
  · exact Or.inl hzero
  obtain ⟨hm, ha⟩ := hab.resolve_left hzero
  have hb : b.significand ≠ 0 := by
    intro h
    rw [h] at hs
    exact hzero (Int.sign_eq_zero_iff_zero.mp hs)
  obtain ⟨hn, hc⟩ := hbc.resolve_left hb
  -- all three are compared at the lowest of their exponents
  generalize he : min a.exponent (min b.exponent c.exponent) = e
  rw [alignedTo_eq_iff (e := e) (by omega) (by omega)] at ha hc
  right
  refine ⟨hm.trans hn, ?_⟩
  rw [alignedTo_eq_iff (e := e) (by omega) (by omega)]
  exact ha.trans hc

end Wide

/-! ## Reals -/

namespace Real

theorem ratOrder_eq_iff {p q : Rat} : ratOrder p q = .eq ↔ p = q := by
  unfold ratOrder
  by_cases h : p = q
  · simp [h]
  · by_cases hlt : p < q <;> simp [h, hlt]

/-- Exact numbers are compared as fractions, all others with 512 digits. -/
theorem same_iff {a b : Real} : a.same b = true ↔
    if a.isExact && b.isExact then a.toRat = b.toRat else a.toWide.order b.toWide = .eq := by
  unfold same order
  rw [beq_iff_eq]
  split
  · simp only [isExact, Bool.and_self, ↓reduceIte, toRat]
    rw [Std.LawfulEqCmp.compare_eq_iff_eq, Rat.intCast_inj]
  · split
    · exact ratOrder_eq_iff
    · rfl

theorem same_self (a : Real) : a.same a = true := by
  rw [same_iff]
  split
  · rfl
  · exact Wide.order_self a.toWide

theorem same_comm (a b : Real) : a.same b = b.same a := by
  rw [Bool.eq_iff_iff, same_iff, same_iff, Bool.and_comm b.isExact]
  split
  · exact eq_comm
  · exact Wide.order_eq_comm _ _

/-- Rounding to 512 digits does not depend on the form of an exact number. -/
theorem toWide_congr {a b : Real} (ha : a.isExact = true) (hb : b.isExact = true)
    (h : a.toRat = b.toRat) : a.toWide = b.toWide := by
  have hfrac {r : Real} (hr : r.isExact = true) : r.toWide = Wide.ofRat r.toRat := by
    cases r with
    | int v => exact (Wide.ofRat_intCast v).symm
    | frac q => rfl
    | wide w => cases hr
  rw [hfrac ha, hfrac hb, h]

/-- Numbers that are the same stay so when both are rounded. -/
theorem order_toWide_of_same {a b : Real} (h : a.same b = true) :
    a.toWide.order b.toWide = .eq := by
  rw [same_iff] at h
  split at h
  · next hexact =>
    rw [Bool.and_eq_true] at hexact
    rw [toWide_congr hexact.1 hexact.2 h]
    exact Wide.order_self _
  · exact h

/-- Numbers that are the same as one exact number are the same. -/
theorem same_trans {a b c : Real} (hb : b.isExact = true) (hab : a.same b = true)
    (hbc : b.same c = true) : a.same c = true := by
  rw [same_iff]
  split
  · next hexact =>
    rw [Bool.and_eq_true] at hexact
    exact ((same_iff_toRat hexact.1 hb).mp hab).trans ((same_iff_toRat hb hexact.2).mp hbc)
  · exact Wide.order_eq_trans (order_toWide_of_same hab) (order_toWide_of_same hbc)

end Real

/-! ## Constants -/

namespace Const

/-- No part of the constant has been rounded to 512 digits. -/
def isExact : Const → Bool
  | .real r => r.isExact
  | .complex re im => re.isExact && im.isExact
  | _ => true

/-- Numbers are compared part by part. -/
theorem same_of_parts {a b : Const} {p q : Real × Real} (ha : a.parts? = some p)
    (hb : b.parts? = some q) : a.same b = (p.1.same q.1 && p.2.same q.2) := by
  cases a with
  | real r =>
    cases b with
    | real t =>
      cases ha
      cases hb
      show r.same t = (r.same t && (Real.int 0).same (.int 0))
      rw [Real.same_self, Bool.and_true]
    | complex re im =>
      cases ha
      cases hb
      rfl
    | _ => cases hb
  | complex re im =>
    cases b with
    | real t =>
      cases ha
      cases hb
      rfl
    | complex re' im' =>
      cases ha
      cases hb
      rfl
    | _ => cases hb
  | _ => cases ha

/-- A number equals numbers only. -/
theorem same_eq_false_of_parts {a b : Const} {p : Real × Real} (ha : a.parts? = some p)
    (hb : b.parts? = none) : a.same b = false ∧ b.same a = false := by
  cases a <;> cases b <;> simp [same, parts?] at ha hb ⊢

theorem isExact_of_parts {a : Const} {p : Real × Real} (ha : a.parts? = some p) :
    a.isExact = (p.1.isExact && p.2.isExact) := by
  cases a with
  | real r =>
    cases ha
    exact (Bool.and_true _).symm
  | complex re im =>
    cases ha
    rfl
  | _ => cases ha

theorem same_self (c : Const) : c.same c = true := by
  cases hc : c.parts? with
  | some p => rw [same_of_parts hc hc, Real.same_self, Real.same_self, Bool.and_self]
  | none => cases c <;> simp [same, parts?] at hc ⊢

theorem same_comm (a b : Const) : a.same b = b.same a := by
  cases ha : a.parts? with
  | some p =>
    cases hb : b.parts? with
    | some q => rw [same_of_parts ha hb, same_of_parts hb ha, Real.same_comm, Real.same_comm p.2]
    | none =>
      obtain ⟨h₁, h₂⟩ := same_eq_false_of_parts ha hb
      rw [h₁, h₂]
  | none =>
    cases hb : b.parts? with
    | some q =>
      obtain ⟨h₁, h₂⟩ := same_eq_false_of_parts hb ha
      rw [h₁, h₂]
    | none => cases a <;> cases b <;> simp [same, parts?, Bool.beq_comm] at ha hb ⊢

/-- Constants that are the same as one exact constant are the same. -/
theorem same_trans {a b c : Const} (hb : b.isExact = true) (hab : a.same b = true)
    (hbc : b.same c = true) : a.same c = true := by
  cases hpb : b.parts? with
  | some q =>
    cases hpa : a.parts? with
    | none => rw [(same_eq_false_of_parts hpb hpa).2] at hab; cases hab
    | some p =>
      cases hpc : c.parts? with
      | none => rw [(same_eq_false_of_parts hpb hpc).1] at hbc; cases hbc
      | some r =>
        rw [isExact_of_parts hpb, Bool.and_eq_true] at hb
        rw [same_of_parts hpa hpb, Bool.and_eq_true] at hab
        rw [same_of_parts hpb hpc, Bool.and_eq_true] at hbc
        rw [same_of_parts hpa hpc, Real.same_trans hb.1 hab.1 hbc.1,
          Real.same_trans hb.2 hab.2 hbc.2, Bool.and_self]
  | none =>
    -- strings and truth values are the same only if they are one constant
    have hab : a = b := by
      cases a <;> cases b <;> simp [same, parts?] at hpb hab ⊢ <;> exact hab
    rw [hab]
    exact hbc

end Const

/-! ## Values -/

namespace Value

/-- The value comes from a constant that is kept exactly. -/
def isExact (v : Value) : Bool := v.constant.any Const.isExact

theorem same_self {v : Value} (hv : v.IsProper) : v.same v = true := by
  obtain ⟨c, rfl⟩ := hv
  exact Const.same_self c

theorem same_comm (v w : Value) : v.same w = w.same v := by
  obtain ⟨a⟩ := v
  obtain ⟨b⟩ := w
  cases a with
  | none => cases b <;> rfl
  | some a =>
    cases b with
    | none => rfl
    | some b => exact Const.same_comm a b

/-- Values that are the same as one exact value are the same. -/
theorem same_trans {u v w : Value} (hv : v.isExact = true) (huv : u.same v = true)
    (hvw : v.same w = true) : u.same w = true := by
  obtain ⟨_ | b⟩ := v
  · cases hv
  obtain ⟨_ | a⟩ := u
  · cases huv
  obtain ⟨_ | c⟩ := w
  · cases hvw
  exact Const.same_trans hv huv hvw

end Value

end CaseCover
