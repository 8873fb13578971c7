import CaseCover.Decimal.Wide

/-!
# Rounding and powers of two

Rounding to a number of binary digits looks at the digits only: a factor `2 ^ k` moves the
exponent and nothing else (`roundTo_mul_two_pow`). So a whole number is rounded to the same
`Wide`, whether it is held as an integer or as a fraction (`ofRat_intCast`).
-/

namespace CaseCover.Wide

/-! ## Odd significands -/

/-- `n ^^^ (n - 1)` has ones up to the lowest one of `n`; with one more zero in `n` it is longer. -/
theorem xor_pred_two_mul {n : Nat} (hn : n ≠ 0) :
    (2 * n) ^^^ (2 * n - 1) = 2 * (n ^^^ (n - 1)) + 1 := by
  have hdiv : ((2 * n) ^^^ (2 * n - 1)) / 2 = n ^^^ (n - 1) := by
    rw [Nat.xor_div_two, show 2 * n / 2 = n by omega, show (2 * n - 1) / 2 = n - 1 by omega]
  have hmod : ((2 * n) ^^^ (2 * n - 1)) % 2 = 1 := by
    rw [Nat.xor_mod_two_eq_one]
    omega
  omega

theorem xor_pred_ne_zero {n : Nat} (hn : n ≠ 0) : n ^^^ (n - 1) ≠ 0 := by
  have hmod : (n ^^^ (n - 1)) % 2 = 1 := by
    rw [Nat.xor_mod_two_eq_one]
    omega
  omega

theorem log2_xor_pred_two_mul {n : Nat} (hn : n ≠ 0) :
    Nat.log2 ((2 * n) ^^^ (2 * n - 1)) = Nat.log2 (n ^^^ (n - 1)) + 1 := by
  have hpos := xor_pred_ne_zero hn
  rw [xor_pred_two_mul hn, Nat.log2_def, if_pos (by omega)]
  rw [show (2 * (n ^^^ (n - 1)) + 1) / 2 = n ^^^ (n - 1) by omega]

theorem normal_two_mul (m e : Int) : normal (2 * m) e = normal m (e + 1) := by
  by_cases hm : m = 0
  · simp [normal, hm]
  have hn : m.natAbs ≠ 0 := by omega
  unfold normal
  rw [if_neg (by omega), if_neg hm]
  simp only [Int.natAbs_mul, show (2 : Int).natAbs = 2 from rfl]
  rw [log2_xor_pred_two_mul hn, Nat.pow_succ', Int.natCast_mul]
  have hdiv := Int.mul_ediv_mul_of_pos (a := 2) m
    ((2 ^ Nat.log2 (m.natAbs ^^^ (m.natAbs - 1)) : Nat) : Int) (by omega)
  rw [show ((2 : Nat) : Int) = 2 from rfl, hdiv]
  simp only [Int.natCast_add, Int.cast_ofNat_Int, mk.injEq, true_and]
  omega

theorem normal_mul_two_pow (k : Nat) (m e : Int) :
    normal (m * (2 ^ k : Nat)) e = normal m (e + k) := by
  induction k generalizing e with
  | zero => simp
  | succ k ih =>
    have hm : m * (2 ^ (k + 1) : Nat) = 2 * (m * (2 ^ k : Nat)) := by
      rw [Nat.pow_succ', Int.natCast_mul]
      exact Int.mul_left_comm m 2 _
    rw [hm, normal_two_mul, ih]
    congr 1
    omega

/-! ## Dropping digits -/

theorem digitCount_mul_two_pow {n : Nat} (hn : n ≠ 0) (k : Nat) :
    digitCount (n * 2 ^ k) = digitCount n + k := by
  induction k with
  | zero => simp
  | succ k ih =>
    have hk : n * 2 ^ k ≠ 0 := Nat.mul_ne_zero hn (Nat.ne_of_gt (Nat.two_pow_pos k))
    have hsucc : n * 2 ^ (k + 1) = 2 * (n * 2 ^ k) := by
      rw [Nat.pow_succ']
      exact Nat.mul_left_comm n 2 _
    unfold digitCount at ih ⊢
    rw [if_neg hk, if_neg hn] at ih
    rw [hsucc, if_neg (by omega), if_neg hn, Nat.log2_two_mul hk]
    omega

/-- Zeros below the dropped digits decide nothing. -/
theorem dropDigits_mul_two_pow (mode : Rounding) (n drop k : Nat) :
    dropDigits mode (n * 2 ^ k) (drop + k) false = dropDigits mode n drop false := by
  have hpos : 0 < 2 ^ k := Nat.two_pow_pos k
  have hq : (n * 2 ^ k) >>> (drop + k) = n >>> drop := by
    rw [Nat.shiftRight_eq_div_pow, Nat.shiftRight_eq_div_pow, Nat.pow_add]
    exact Nat.mul_div_mul_right n (2 ^ drop) hpos
  have hr : n * 2 ^ k - (n >>> drop) <<< (drop + k) = (n - (n >>> drop) <<< drop) * 2 ^ k := by
    rw [Nat.shiftLeft_eq, Nat.shiftLeft_eq, Nat.pow_add, Nat.sub_mul, Nat.mul_assoc]
  have hhalf : 1 <<< (drop + k) = (1 <<< drop) * 2 ^ k := by
    rw [Nat.shiftLeft_eq, Nat.shiftLeft_eq, Nat.one_mul, Nat.one_mul, Nat.pow_add]
  unfold dropDigits
  simp only [hq, hr, hhalf, Bool.or_false]
  -- what is dropped and the unit above it both have the factor `2 ^ k`
  generalize n - (n >>> drop) <<< drop = r
  generalize 1 <<< drop = half
  have hzero : (r * 2 ^ k ≠ 0) ↔ (r ≠ 0) := by
    rw [Nat.mul_ne_zero_iff]
    exact ⟨fun h => h.1, fun h => ⟨h, by omega⟩⟩
  have hlt : half * 2 ^ k < 2 * (r * 2 ^ k) ↔ half < 2 * r := by
    rw [← Nat.mul_assoc]
    exact Nat.mul_lt_mul_right hpos
  have heq : (2 * (r * 2 ^ k) == half * 2 ^ k) = (2 * r == half) := by
    rw [← Nat.mul_assoc, Bool.eq_iff_iff, beq_iff_eq, beq_iff_eq]
    exact Nat.mul_right_cancel_iff hpos
  cases mode with
  | towardZero => rfl
  | awayFromZero => simp only [hzero]
  | nearest => simp only [hlt, heq]

/-- Digits that are zero may be dropped without a trace. -/
theorem dropDigits_exact (mode : Rounding) (n drop : Nat) :
    dropDigits mode (n * 2 ^ drop) drop false = n := by
  have h := dropDigits_mul_two_pow mode n 0 drop
  rw [Nat.zero_add] at h
  rw [h]
  unfold dropDigits
  cases mode <;> simp

/-! ## Rounding -/

theorem signed_natAbs_mul (m : Int) (c : Nat) :
    (if m < 0 then -((m.natAbs * c : Nat) : Int) else (m.natAbs * c : Nat)) = m * c := by
  split
  · rw [Int.natCast_mul, ← Int.neg_mul, show -(m.natAbs : Int) = m by omega]
  · rw [Int.natCast_mul, show (m.natAbs : Int) = m by omega]

/-- A factor `2 ^ k` only moves the exponent of the rounded number. -/
theorem roundTo_mul_two_pow (mode : Rounding) (digits : Nat) (m e : Int) (k : Nat) :
    roundTo mode digits (m * (2 ^ k : Nat)) e false = roundTo mode digits m (e + k) false := by
  by_cases hm : m = 0
  · simp [roundTo, hm, digitCount, normal]
  have hn : m.natAbs ≠ 0 := by omega
  have habs : (m * (2 ^ k : Nat)).natAbs = m.natAbs * 2 ^ k := by
    rw [Int.natAbs_mul, Int.natAbs_natCast]
  have hneg : m * (2 ^ k : Nat) < 0 ↔ m < 0 := by
    have hpos : (0 : Int) < (2 ^ k : Nat) := by
      have := Nat.two_pow_pos k
      omega
    constructor
    · intro h
      rw [Int.mul_comm] at h
      exact Int.neg_of_mul_neg_right h (by omega)
    · intro h
      exact Int.mul_neg_of_neg_of_pos h hpos
  unfold roundTo
  simp only [habs, hneg, digitCount_mul_two_pow hn]
  by_cases hshort : digitCount m.natAbs + k ≤ digits
  · rw [if_pos hshort, if_pos (by omega)]
    exact normal_mul_two_pow k m e
  rw [if_neg hshort]
  by_cases hfits : digitCount m.natAbs ≤ digits
  · -- only zeros are dropped, and the rest of `2 ^ k` stays in the significand
    rw [if_pos hfits]
    obtain ⟨rest, hrest⟩ : ∃ rest, k = rest + (digitCount m.natAbs + k - digits) :=
      ⟨digits - digitCount m.natAbs, by omega⟩
    generalize digitCount m.natAbs + k - digits = drop at hrest ⊢
    have hq : dropDigits mode (m.natAbs * 2 ^ k) drop false = m.natAbs * 2 ^ rest := by
      rw [hrest, Nat.pow_add, ← Nat.mul_assoc]
      exact dropDigits_exact mode _ drop
    rw [hq, signed_natAbs_mul, normal_mul_two_pow]
    congr 1
    omega
  · rw [if_neg hfits]
    have hdrop : digitCount m.natAbs + k - digits = (digitCount m.natAbs - digits) + k := by omega
    rw [hdrop, dropDigits_mul_two_pow]
    congr 1
    omega

/-- Normalising takes a power of two out of the significand. -/
theorem exists_normal_eq {m : Int} (hm : m ≠ 0) (e : Int) :
    ∃ k : Nat, m = (normal m e).significand * (2 ^ k : Nat) ∧ (normal m e).exponent = e + k := by
  induction h : m.natAbs using Nat.strongRecOn generalizing m e with
  | _ n ih =>
    -- a factor two goes into the exponent, and what is left is smaller
    by_cases heven : m % 2 = 0
    · obtain ⟨half, rfl⟩ : ∃ half, m = 2 * half := ⟨m / 2, by omega⟩
      obtain ⟨k, hsig, hexp⟩ := ih half.natAbs (by omega) (show half ≠ 0 by omega) (e + 1) rfl
      refine ⟨k + 1, ?_, ?_⟩
      · rw [normal_two_mul, Nat.pow_succ', Int.natCast_mul, Int.mul_left_comm, ← hsig]
        rfl
      · rw [normal_two_mul, hexp]
        omega
    · have hone : m.natAbs ^^^ (m.natAbs - 1) = 1 := by
        have hdiv : (m.natAbs ^^^ (m.natAbs - 1)) / 2 = 0 := by
          rw [Nat.xor_div_two, show (m.natAbs - 1) / 2 = m.natAbs / 2 by omega, Nat.xor_self]
        have hne := xor_pred_ne_zero (n := m.natAbs) (by omega)
        omega
      refine ⟨0, ?_, ?_⟩ <;> simp [normal, hm, hone, show Nat.log2 1 = 0 from rfl]

/-- A quotient by one is the number itself, rounded. -/
theorem quoTo_one (digits : Nat) (a : Wide) :
    quoTo digits a ⟨1, 0⟩ = roundTo .nearest digits a.significand a.exponent false := by
  unfold quoTo
  simp only [Int.natAbs_one, Nat.mod_one, Nat.shiftLeft_eq]
  generalize digits + 2 + digitCount 1 - min (digitCount a.significand.natAbs)
    (digits + 2 + digitCount 1) = shift
  have hsign : ((decide (a.significand < 0)) != decide ((1 : Int) < 0)) = true ↔
      a.significand < 0 := by
    simp
  simp only [hsign, Int.natCast_one, Int.ediv_one, signed_natAbs_mul, ne_eq, not_true_eq_false,
    decide_false]
  rw [roundTo_mul_two_pow]
  congr 1
  omega

/-- A whole number rounds to the same number as an integer and as a fraction. -/
theorem ofRat_intCast (v : Int) : ofRat (v : Rat) = ofInt v := by
  unfold ofRat ofInt
  rw [Rat.num_intCast, Rat.den_intCast, show normal ((1 : Nat) : Int) 0 = ⟨1, 0⟩ from rfl,
    quoTo_one]
  by_cases hv : v = 0
  · rw [hv]
    rfl
  obtain ⟨k, hsig, hexp⟩ := exists_normal_eq hv 0
  rw [hexp, ← roundTo_mul_two_pow, ← hsig]

end CaseCover.Wide
