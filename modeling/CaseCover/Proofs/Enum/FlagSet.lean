import CaseCover.Proofs.Enum.Flags
import Mathlib.Data.Finset.Card
import Mathlib.Data.Finset.Fold
import Mathlib.Data.Nat.Bitwise
import Mathlib.Order.Interval.Finset.Nat

/-!
# Flags as sets of words

Constants look like flags exactly if they are 64 bit words, at least three of them differ, they are
no run of consecutive numbers, and one of them is the bitwise union of a set of two or more of the
others (`AreFlags`). Two steps lead from the test to this statement about sets.

Only one union is tried for a word, that of all other words whose bits it has. If any set of two or
more others has the word as its union, so has this largest one (`isUnionOfOthers_iff`).

A run is found from the first word, the last one and their number. In growing order the first is not
above the last, so the difference does not wrap around, and it is one less than the number of words
exactly for a run (`isDense_iff`).
-/

namespace CaseCover.Enum

/-- The 64 bit words among constants. -/
def wordsIn (values : List (Option Const)) : Finset Nat := (values.filterMap word?).toFinset

/-- The bitwise union of a set of words. -/
def bitUnion (S : Finset Nat) : Nat := S.fold (fun u w : Nat => u ||| w) 0 id

/-- What flags are. -/
structure AreFlags (values : List (Option Const)) : Prop where
  words : ∀ v ∈ values, ∃ n : Nat, n < 2 ^ 64 ∧ v = some (.real (.int n))
  three : 3 ≤ (wordsIn values).card
  gap : ∀ first count, wordsIn values ≠ Finset.Ico first (first + count)
  union : ∃ v ∈ wordsIn values, ∃ S ⊆ (wordsIn values).erase v, 2 ≤ S.card ∧ bitUnion S = v

/-! ## Bits of unions -/

theorem testBit_foldl_or (us : List Nat) (a i : Nat) :
    (us.foldl (· ||| ·) a).testBit i = true ↔ a.testBit i = true ∨ ∃ u ∈ us, u.testBit i = true := by
  induction us generalizing a with
  | nil => simp
  | cons u us ih =>
    rw [List.foldl_cons, ih, Nat.testBit_or, Bool.or_eq_true, or_assoc]
    simp

/-- The union of a set of words has the bits of its words. -/
theorem testBit_bitUnion (S : Finset Nat) (i : Nat) :
    (bitUnion S).testBit i = true ↔ ∃ u ∈ S, u.testBit i = true := by
  induction S using Finset.induction_on with
  | empty => simp [bitUnion]
  | insert u S hu ih =>
    rw [bitUnion, Finset.fold_insert hu, ← bitUnion, Nat.testBit_or, Bool.or_eq_true, ih]
    simp

theorem eq_of_testBit_iff {m n : Nat} (h : ∀ i, m.testBit i = true ↔ n.testBit i = true) :
    m = n :=
  Nat.eq_of_testBit_eq fun i => Bool.eq_iff_iff.mpr (h i)

/-- The bits of one word are bits of another. -/
theorem and_eq_left_iff {u v : Nat} :
    u &&& v = u ↔ ∀ i, u.testBit i = true → v.testBit i = true := by
  constructor
  · intro h i hi
    rw [← h, Nat.testBit_and, Bool.and_eq_true] at hi
    exact hi.2
  · intro h
    refine eq_of_testBit_iff fun i => ?_
    rw [Nat.testBit_and, Bool.and_eq_true]
    exact ⟨And.left, fun hi => ⟨hi, h i hi⟩⟩

/-! ## Unions of others -/

/-- The parts of a word are the other words whose bits are all in it, 0 excepted. -/
theorem mem_partsOf {ns : List Nat} {u v : Nat} :
    u ∈ partsOf ns v ↔
      u ∈ ns ∧ u ≠ 0 ∧ u ≠ v ∧ ∀ i, u.testBit i = true → v.testBit i = true := by
  rw [partsOf, List.mem_filter, ← and_eq_left_iff]
  simp [and_assoc]

/-- The union of the parts of a word is the word exactly if every bit of it is in a part. -/
theorem foldl_partsOf_eq_iff {ns : List Nat} {v : Nat} :
    (partsOf ns v).foldl (· ||| ·) 0 = v ↔
      ∀ i, v.testBit i = true → ∃ u ∈ partsOf ns v, u.testBit i = true := by
  constructor
  · intro h i hi
    rw [← h, testBit_foldl_or] at hi
    simpa using hi
  · intro h
    refine eq_of_testBit_iff fun i => ?_
    rw [testBit_foldl_or]
    constructor
    · rintro (hzero | ⟨u, hu, hi⟩)
      · simp at hzero
      · exact (mem_partsOf.mp hu).2.2.2 i hi
    · exact fun hi => .inr (h i hi)

theorem partsOf_nodup {ns : List Nat} (hns : ns.Nodup) (v : Nat) : (partsOf ns v).Nodup :=
  hns.filter _

/-- The union of all parts of a word is it, if the union of some two or more others is. -/
theorem isUnionOfOthers_iff {ns : List Nat} (hns : ns.Nodup) {v : Nat} :
    isUnionOfOthers ns v = true ↔
      ∃ S ⊆ ns.toFinset.erase v, 2 ≤ S.card ∧ bitUnion S = v := by
  simp only [isUnionOfOthers, Bool.and_eq_true, decide_eq_true_eq, beq_iff_eq]
  constructor
  · rintro ⟨⟨-, htwo⟩, hunion⟩
    refine ⟨(partsOf ns v).toFinset, fun u hu => ?_, ?_, ?_⟩
    · obtain ⟨hmem, -, hne, -⟩ := mem_partsOf.mp (List.mem_toFinset.mp hu)
      exact Finset.mem_erase.mpr ⟨hne, List.mem_toFinset.mpr hmem⟩
    · rwa [List.toFinset_card_of_nodup (partsOf_nodup hns v)]
    · refine eq_of_testBit_iff fun i => ?_
      rw [testBit_bitUnion]
      constructor
      · rintro ⟨u, hu, hi⟩
        exact (mem_partsOf.mp (List.mem_toFinset.mp hu)).2.2.2 i hi
      · intro hi
        obtain ⟨u, hu, hbit⟩ := foldl_partsOf_eq_iff.mp hunion i hi
        exact ⟨u, List.mem_toFinset.mpr hu, hbit⟩
  · rintro ⟨S, hsub, htwo, hunion⟩
    have hbits (i : Nat) : v.testBit i = true ↔ ∃ u ∈ S, u.testBit i = true := by
      rw [← testBit_bitUnion, hunion]
    -- whatever is in the set is a part of the word, but for 0
    have hpart {u : Nat} (hu : u ∈ S) {i : Nat} (hi : u.testBit i = true) : u ∈ partsOf ns v := by
      obtain ⟨hne, hmem⟩ := Finset.mem_erase.mp (hsub hu)
      refine mem_partsOf.mpr ⟨List.mem_toFinset.mp hmem, ?_, hne, fun j hj =>
        (hbits j).mpr ⟨u, hu, hj⟩⟩
      rintro rfl
      simp at hi
    obtain ⟨w, hw, hwzero⟩ := Finset.exists_mem_ne htwo 0
    obtain ⟨i, hwi⟩ := Nat.exists_testBit_of_ne_zero hwzero
    have hwpart := mem_partsOf.mp (hpart hw hwi)
    have hvzero : v ≠ 0 := by
      rintro rfl
      have := hwpart.2.2.2 i hwi
      simp at this
    -- `w` lacks a bit of the word, which another element has
    obtain ⟨j, hvj, hwj⟩ : ∃ j, v.testBit j = true ∧ ¬w.testBit j = true := by
      by_contra hno
      push Not at hno
      exact hwpart.2.2.1 (eq_of_testBit_iff fun j => ⟨hwpart.2.2.2 j, hno j⟩)
    obtain ⟨u, hu, huj⟩ := (hbits j).mp hvj
    have huw : u ≠ w := by
      rintro rfl
      exact hwj huj
    refine ⟨⟨hvzero, ?_⟩, foldl_partsOf_eq_iff.mpr fun k hk => ?_⟩
    · rw [← List.toFinset_card_of_nodup (partsOf_nodup hns v)]
      exact Finset.one_lt_card.mpr ⟨u, List.mem_toFinset.mpr (hpart hu huj), w,
        List.mem_toFinset.mpr (hpart hw hwi), huw⟩
    · obtain ⟨x, hx, hxk⟩ := (hbits k).mp hk
      exact ⟨x, hpart hx hxk, hxk⟩

/-! ## Runs -/

/-- The words in growing order, all of them. -/
structure IsGrowing (ns : List Nat) : Prop where
  sorted : ns.Pairwise (· < ·)
  words : ∀ n ∈ ns, n < 2 ^ 64

theorem IsGrowing.nodup {ns : List Nat} (h : IsGrowing ns) : ns.Nodup :=
  h.sorted.imp fun hlt => Nat.ne_of_lt hlt

/-- A growing list lies between its first and its last word. -/
theorem IsGrowing.between {ns : List Nat} (h : IsGrowing ns) {a b n : Nat}
    (ha : ns.head? = some a) (hb : ns.getLast? = some b) (hn : n ∈ ns) : a ≤ n ∧ n ≤ b := by
  constructor
  · obtain ⟨rest, rfl⟩ := List.head?_eq_some_iff.mp ha
    rcases List.mem_cons.mp hn with rfl | hn
    · exact Nat.le_refl n
    · exact Nat.le_of_lt (List.rel_of_pairwise_cons h.sorted hn)
  · obtain ⟨front, rfl⟩ := List.getLast?_eq_some_iff.mp hb
    rcases List.mem_append.mp hn with hn | hn
    · have hlt := (List.pairwise_append.mp h.sorted).2.2 n hn b (List.mem_singleton_self b)
      exact Nat.le_of_lt hlt
    · exact Nat.le_of_eq (List.mem_singleton.mp hn)

theorem IsGrowing.subset_Icc {ns : List Nat} (h : IsGrowing ns) {a b : Nat}
    (ha : ns.head? = some a) (hb : ns.getLast? = some b) : ns.toFinset ⊆ Finset.Icc a b :=
  fun _ hn => Finset.mem_Icc.mpr (h.between ha hb (List.mem_toFinset.mp hn))

/-- The difference of the last word and the first, and the number of the words less one, are what
they are in 64 bits. -/
theorem IsGrowing.exact {ns : List Nat} (h : IsGrowing ns) {a b : Nat}
    (ha : ns.head? = some a) (hb : ns.getLast? = some b) :
    a ≤ b ∧ (UInt64.ofNat b - UInt64.ofNat a).toNat = b - a ∧
      (UInt64.ofNat (ns.length - 1)).toNat = ns.length - 1 := by
  have hle : a ≤ b := (h.between ha hb (List.mem_of_getLast? hb)).1
  have hlast : b < 2 ^ 64 := h.words b (List.mem_of_getLast? hb)
  have hcount : ns.length ≤ b + 1 - a := by
    rw [← List.toFinset_card_of_nodup h.nodup, ← Nat.card_Icc]
    exact Finset.card_le_card (h.subset_Icc ha hb)
  have htoNat {n : Nat} (hn : n < 2 ^ 64) : (UInt64.ofNat n).toNat = n :=
    UInt64.toNat_ofNat_of_lt' hn
  refine ⟨hle, ?_, htoNat (by omega)⟩
  rw [UInt64.toNat_sub_of_le, htoNat hlast, htoNat (Nat.lt_of_le_of_lt hle hlast)]
  rw [UInt64.le_iff_toNat_le, htoNat hlast, htoNat (Nat.lt_of_le_of_lt hle hlast)]
  exact hle

/-- The test for a run holds exactly if the words are all those from a first one on. -/
theorem isDense_iff {ns : List Nat} (h : IsGrowing ns) (hne : ns ≠ []) :
    isDense ns = true ↔ ∃ first count, ns.toFinset = Finset.Ico first (first + count) := by
  obtain ⟨a, ha⟩ : ∃ a, ns.head? = some a := ⟨_, List.head?_eq_some_head hne⟩
  obtain ⟨b, hb⟩ : ∃ b, ns.getLast? = some b := ⟨_, List.getLast?_eq_some_getLast hne⟩
  obtain ⟨hle, hdifference, hnumber⟩ := h.exact ha hb
  have hpos := List.length_pos_iff.mpr hne
  have hcard := List.toFinset_card_of_nodup h.nodup
  have hdense : isDense ns = true ↔ b - a = ns.length - 1 := by
    rw [isDense, ha, hb, ← hdifference, ← hnumber, beq_iff_eq, UInt64.toNat_inj, hnumber]
  rw [hdense]
  constructor
  · intro hlength
    refine ⟨a, ns.length, ?_⟩
    have heq : ns.toFinset = Finset.Icc a b := by
      refine Finset.eq_of_subset_of_card_le (h.subset_Icc ha hb) ?_
      rw [hcard, Nat.card_Icc]
      omega
    rw [heq]
    ext n
    rw [Finset.mem_Icc, Finset.mem_Ico]
    omega
  · rintro ⟨first, count, heq⟩
    have hcount : ns.length = count := by
      rw [← hcard, heq, Nat.card_Ico]
      omega
    have hmem (n : Nat) : n ∈ ns ↔ first ≤ n ∧ n < first + count := by
      rw [← List.mem_toFinset, heq, Finset.mem_Ico]
    have hfirst := h.between ha hb ((hmem first).mpr (by omega))
    have hlast := h.between ha hb ((hmem (first + count - 1)).mpr (by omega))
    have hina := (hmem a).mp (List.mem_of_head? ha)
    have hinb := (hmem b).mp (List.mem_of_getLast? hb)
    omega

/-! ## Flags -/

/-- A constant is a word exactly if it is a whole number below 2 ^ 64. -/
theorem word?_eq_some_iff {v : Option Const} {n : Nat} :
    word? v = some n ↔ n < 2 ^ 64 ∧ v = some (.real (.int n)) := by
  unfold word?
  split
  · next i =>
    simp only [Bool.and_eq_true, decide_eq_true_eq, Option.ite_none_right_eq_some,
      Option.some.injEq, Const.real.injEq, Real.int.injEq]
    omega
  · next hno =>
    refine iff_of_false nofun ?_
    rintro ⟨-, rfl⟩
    exact hno _ rfl

theorem mem_wordsIn {values : List (Option Const)} {n : Nat} :
    n ∈ wordsIn values ↔ n < 2 ^ 64 ∧ some (.real (.int n)) ∈ values := by
  simp only [wordsIn, List.mem_toFinset, List.mem_filterMap, word?_eq_some_iff]
  constructor
  · rintro ⟨_, hv, hlt, rfl⟩
    exact ⟨hlt, hv⟩
  · rintro ⟨hlt, hv⟩
    exact ⟨_, hv, hlt, rfl⟩

theorem mem_sortedDistinct {ws : List Nat} {n : Nat} : n ∈ sortedDistinct ws ↔ n ∈ ws := by
  rw [sortedDistinct, List.mem_mergeSort, List.mem_eraseDups]

theorem sortedDistinct_pairwise (ws : List Nat) : (sortedDistinct ws).Pairwise (· < ·) := by
  have hsorted : (sortedDistinct ws).Pairwise fun a b => decide (a ≤ b) = true :=
    List.pairwise_mergeSort (decide_le_trans id) (decide_le_total id) _
  have hnodup : (sortedDistinct ws).Nodup :=
    (List.mergeSort_perm _ _).nodup_iff.mpr (eraseDups_nodup ws)
  refine (hsorted.and hnodup).imp fun {a b} h => ?_
  exact Nat.lt_of_le_of_ne (of_decide_eq_true h.1) h.2

/-- A growing list of some words is what sorting them gives. -/
theorem sortedDistinct_eq {ws ns : List Nat} (hns : ns.Pairwise (· < ·))
    (h : ∀ n, n ∈ ws ↔ n ∈ ns) : sortedDistinct ws = ns :=
  (sortedDistinct_pairwise ws).eq_of_mem_iff hns fun n => by rw [mem_sortedDistinct, h]

theorem words_iff {values : List (Option Const)} :
    (∃ ws, words? values = some ws) ↔
      ∀ v ∈ values, ∃ n : Nat, n < 2 ^ 64 ∧ v = some (.real (.int n)) := by
  simp only [words?_eq_some_iff, exists_and_left, exists_eq, and_true,
    Option.isSome_iff_exists, word?_eq_some_iff]

section Words

variable {values : List (Option Const)} {ws : List Nat} (hws : words? values = some ws)
include hws

/-- As a set, sorted words are the words among the constants. -/
theorem toFinset_sortedDistinct : (sortedDistinct ws).toFinset = wordsIn values := by
  obtain ⟨-, rfl⟩ := words?_eq_some_iff.mp hws
  ext n
  rw [wordsIn, List.mem_toFinset, List.mem_toFinset, mem_sortedDistinct]

theorem isGrowing_sortedDistinct : IsGrowing (sortedDistinct ws) where
  sorted := sortedDistinct_pairwise ws
  words n hn := by
    rw [← List.mem_toFinset, toFinset_sortedDistinct hws] at hn
    exact (mem_wordsIn.mp hn).1

/-- The test on words in growing order, as a statement about the set of words. -/
theorem looksLikeFlags_iff_of_words :
    looksLikeFlags values = true ↔ 3 ≤ (wordsIn values).card ∧
      (∀ first count, wordsIn values ≠ Finset.Ico first (first + count)) ∧
      ∃ v ∈ wordsIn values, ∃ S ⊆ (wordsIn values).erase v, 2 ≤ S.card ∧ bitUnion S = v := by
  have hgrowing := isGrowing_sortedDistinct hws
  have hset := toFinset_sortedDistinct hws
  have hcard : (sortedDistinct ws).length = (wordsIn values).card := by
    rw [← hset, List.toFinset_card_of_nodup hgrowing.nodup]
  simp only [looksLikeFlags, hws, Bool.and_eq_true, decide_eq_true_eq, Bool.not_eq_true',
    List.any_eq_true, isUnionOfOthers_iff hgrowing.nodup, hset, hcard, ← List.mem_toFinset,
    and_assoc]
  refine and_congr_right fun hthree => and_congr_left fun _ => ?_
  have hne : sortedDistinct ws ≠ [] := by
    rintro hnil
    rw [hnil] at hcard
    simp only [List.length_nil] at hcard
    omega
  rw [← Bool.not_eq_true, isDense_iff hgrowing hne, hset]
  push Not
  rfl

end Words

/-- The test on constants is the statement about the set of their words. -/
theorem looksLikeFlags_iff {values : List (Option Const)} :
    looksLikeFlags values = true ↔ AreFlags values := by
  constructor
  · intro h
    cases hws : words? values with
    | none =>
      rw [looksLikeFlags, hws] at h
      cases h
    | some ws =>
      obtain ⟨hthree, hgap, hunion⟩ := (looksLikeFlags_iff_of_words hws).mp h
      exact ⟨words_iff.mp ⟨ws, hws⟩, hthree, hgap, hunion⟩
  · intro h
    obtain ⟨ws, hws⟩ := words_iff.mpr h.words
    exact (looksLikeFlags_iff_of_words hws).mpr ⟨h.three, h.gap, h.union⟩

/-- Whether constants are flags depends only on which constants there are. -/
theorem AreFlags.of_mem_iff {values values' : List (Option Const)}
    (hmem : ∀ v, v ∈ values' ↔ v ∈ values) (h : AreFlags values) : AreFlags values' := by
  have hset : wordsIn values' = wordsIn values := by
    ext n
    rw [mem_wordsIn, mem_wordsIn, hmem]
  exact ⟨fun v hv => h.words v ((hmem v).mp hv), hset ▸ h.three, hset ▸ h.gap, hset ▸ h.union⟩

/-- Constants look like flags exactly if they are flags. So the order of the constants and
repetitions make no difference. The test for a run, which subtracts words, subtracts the smaller one
and takes no number that has more than 64 bits. -/
theorem flags_by_their_words (values : List (Option Const)) :
    (looksLikeFlags values = true ↔ AreFlags values) ∧
    (∀ values', (∀ v, v ∈ values' ↔ v ∈ values) →
      looksLikeFlags values' = looksLikeFlags values) ∧
    ∀ ws a b, words? values = some ws → (sortedDistinct ws).head? = some a →
      (sortedDistinct ws).getLast? = some b →
      a ≤ b ∧ (UInt64.ofNat b - UInt64.ofNat a).toNat = b - a ∧
        (UInt64.ofNat ((sortedDistinct ws).length - 1)).toNat = (sortedDistinct ws).length - 1 := by
  refine ⟨looksLikeFlags_iff, fun values' hmem => ?_, fun ws a b hws ha hb => ?_⟩
  · rw [Bool.eq_iff_iff, looksLikeFlags_iff, looksLikeFlags_iff]
    exact ⟨AreFlags.of_mem_iff fun v => (hmem v).symm, AreFlags.of_mem_iff hmem⟩
  · exact (isGrowing_sortedDistinct hws).exact ha hb

/-- Constants of these numbers. -/
def numbered (ns : List Int) : List (Option Const) := ns.map fun n => some (.real (.int n))

/-- The greatest bit and the least one, alone and together, with 0 and a repetition. -/
theorem flags_by_their_words_extreme :
    AreFlags (numbered [2 ^ 63 + 1, 1, 2 ^ 63, 1, 0]) ∧
    (∀ v, v ∈ numbered [0, 1, 2 ^ 63, 2 ^ 63 + 1] ↔
      v ∈ numbered [2 ^ 63 + 1, 1, 2 ^ 63, 1, 0]) ∧
    looksLikeFlags (numbered [0, 1, 2 ^ 63, 2 ^ 63 + 1]) =
      looksLikeFlags (numbered [2 ^ 63 + 1, 1, 2 ^ 63, 1, 0]) ∧
    (UInt64.ofNat (2 ^ 63 + 1) - UInt64.ofNat 0).toNat = 2 ^ 63 + 1 - 0 := by
  have hmem : ∀ v, v ∈ numbered [0, 1, 2 ^ 63, 2 ^ 63 + 1] ↔
      v ∈ numbered [2 ^ 63 + 1, 1, 2 ^ 63, 1, 0] := by
    intro v
    simp only [numbered, List.map_cons, List.map_nil, List.mem_cons, List.not_mem_nil]
    tauto
  have hsorted : sortedDistinct [2 ^ 63 + 1, 1, 2 ^ 63, 1, 0] = [0, 1, 2 ^ 63, 2 ^ 63 + 1] := by
    refine sortedDistinct_eq (by decide) fun n => ?_
    simp only [List.mem_cons, List.not_mem_nil]
    tauto
  have hflags : looksLikeFlags (numbered [2 ^ 63 + 1, 1, 2 ^ 63, 1, 0]) = true := by
    have hwords : words? (numbered [2 ^ 63 + 1, 1, 2 ^ 63, 1, 0]) =
        some [2 ^ 63 + 1, 1, 2 ^ 63, 1, 0] := by decide
    rw [looksLikeFlags, hwords]
    simp only [hsorted]
    decide
  have hlaw := flags_by_their_words (numbered [2 ^ 63 + 1, 1, 2 ^ 63, 1, 0])
  have hdifference := hlaw.2.2 [2 ^ 63 + 1, 1, 2 ^ 63, 1, 0] 0 (2 ^ 63 + 1) (by decide)
    (by rw [hsorted]; rfl) (by rw [hsorted]; rfl)
  exact ⟨hlaw.1.mp hflags, hmem, hlaw.2.1 _ hmem, hdifference.2.1⟩

end CaseCover.Enum
