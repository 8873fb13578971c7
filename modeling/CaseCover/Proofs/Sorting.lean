import Mathlib.Data.List.Sort

/-!
# Sorted lists

Sorting is stable. So a list that is sorted twice is ordered by the second order, and by the first
one where the second does not decide (`mergeSort_pairwise_of_pairwise`), and leaving elements out
before or after sorting makes no difference (`filter_mergeSort`). Elements between which the order
does not decide keep their order (`filter_ties_mergeSort`), and that is all a sorted list depends on
(`mergeSort_eq_of_ties`). A list in strict order can be put together again from the elements of a kind
and all others (`merge_filter_not`).
-/

namespace CaseCover

variable {α : Type}

theorem eraseDups_nodup [BEq α] [LawfulBEq α] (l : List α) : l.eraseDups.Nodup := by
  -- the list that is left after the first element is a filtered one, so the induction is on lengths
  induction hn : l.length using Nat.strongRecOn generalizing l with
  | ind n ih =>
    cases l with
    | nil => exact List.nodup_nil
    | cons a l =>
      rw [List.eraseDups_cons, List.nodup_cons, List.mem_eraseDups, List.mem_filter]
      have hlt : (l.filter fun b => !b == a).length < n := by
        have := List.length_filter_le (fun b => !b == a) l
        rw [List.length_cons] at hn
        omega
      exact ⟨by simp, ih _ hlt _ rfl⟩

/-- Of lists that are joined, at most one has elements of a kind. Then the order in which they are
joined does not show in these elements. -/
theorem filter_flatten_eq_of_apart {p : α → Bool} {a b : List (List α)} (h : a.Perm b)
    (hapart : a.Pairwise fun l l' => l.filter p = [] ∨ l'.filter p = []) :
    a.flatten.filter p = b.flatten.filter p := by
  induction h with
  | nil => rfl
  | cons l _ ih =>
    rw [List.flatten_cons, List.flatten_cons, List.filter_append, List.filter_append,
      ih (List.pairwise_cons.mp hapart).2]
  | swap l l' rest =>
    simp only [List.flatten_cons, List.filter_append]
    rcases (List.pairwise_cons.mp hapart).1 l List.mem_cons_self with hnil | hnil <;>
      rw [hnil] <;> rfl
  | trans hab _ ihab ihbc =>
    exact (ihab hapart).trans (ihbc ((hab.pairwise_iff fun h => h.symm).mp hapart))

/-- Taken kind by kind, the elements of some kinds are all there, if none is of two kinds. -/
theorem flatMap_filter_perm_of_apart {κ : Type} (p : κ → α → Bool) (kinds : List κ) (l : List α)
    (h : kinds.Pairwise fun k k' => ∀ a ∈ l, p k a = true → p k' a = false) :
    (kinds.flatMap fun k => l.filter (p k)).Perm (l.filter fun a => kinds.any fun k => p k a) := by
  induction kinds with
  | nil => simp
  | cons k kinds ih =>
    obtain ⟨hk, hkinds⟩ := List.pairwise_cons.mp h
    have hcut := List.filter_append_perm (p k) (l.filter fun a => (k :: kinds).any fun k => p k a)
    rw [List.filter_filter, List.filter_filter] at hcut
    have hfirst : (l.filter fun a => p k a && (k :: kinds).any fun k => p k a) = l.filter (p k) :=
      List.filter_congr fun a _ => by cases ha : p k a <;> simp [ha]
    have hrest : (l.filter fun a => !p k a && (k :: kinds).any fun k => p k a) =
        l.filter fun a => kinds.any fun k => p k a := by
      refine List.filter_congr fun a ha => ?_
      cases hpa : p k a with
      | false => simp [hpa]
      | true =>
        have hnone : (kinds.any fun k => p k a) = false :=
          List.any_eq_false.mpr fun k' hk' => by simp [hk k' hk' a ha hpa]
        rw [hnone]
        rfl
    rw [hfirst, hrest] at hcut
    exact ((ih hkinds).append_left _).trans hcut

/-! ## Orders by a number -/

theorem decide_le_trans (f : α → Nat) (a b c : α) (hab : decide (f a ≤ f b) = true)
    (hbc : decide (f b ≤ f c) = true) : decide (f a ≤ f c) = true :=
  decide_eq_true (Nat.le_trans (of_decide_eq_true hab) (of_decide_eq_true hbc))

theorem decide_le_total (f : α → Nat) (a b : α) :
    (decide (f a ≤ f b) || decide (f b ≤ f a)) = true := by
  simpa using Nat.le_total (f a) (f b)

/-! ## Stability -/

section Stable

variable {le : α → α → Bool} (trans : ∀ a b c, le a b = true → le b c = true → le a c = true)
  (total : ∀ a b, (le a b || le b a) = true)
include trans total

/-- Where one more element goes: after the smaller ones and before all others. -/
theorem mergeSort_cons_cut (a : α) (l : List α) :
    ∃ front back, (a :: l).mergeSort le = front ++ a :: back ∧ l.mergeSort le = front ++ back ∧
      (∀ b ∈ front, le a b = false) ∧ ∀ b ∈ back, le a b = true := by
  obtain ⟨front, back, hcons, hl, hfront⟩ := List.mergeSort_cons trans total a l
  refine ⟨front, back, hcons, hl, fun b hb => by simpa using hfront b hb, ?_⟩
  have hsorted := List.pairwise_mergeSort trans total (a :: l)
  rw [hcons] at hsorted
  exact (List.pairwise_cons.mp (List.pairwise_append.mp hsorted).2.1).1

/-- A sorted list can be computed by insertion. -/
theorem mergeSort_eq_insertionSort (l : List α) :
    l.mergeSort le = l.insertionSort fun a b => le a b = true := by
  induction l with
  | nil => simp
  | cons a l ih =>
    obtain ⟨front, back, hcons, hsort, hfront, hback⟩ := mergeSort_cons_cut trans total a l
    rw [List.insertionSort_cons, ← ih, hsort, hcons, List.orderedInsert_eq_take_drop,
      List.takeWhile_append_of_pos (by simpa using hfront),
      List.dropWhile_append_of_pos (by simpa using hfront)]
    cases back with
    | nil => simp
    | cons b back => simp [hback b List.mem_cons_self]

/-- Elements of a list with an order stay in that order where the order of the sort does not
decide. -/
theorem mergeSort_pairwise_of_pairwise {R : α → α → Prop} {l : List α} (hl : l.Pairwise R) :
    (l.mergeSort le).Pairwise fun a b => le a b = true ∧ (le b a = true → R a b) := by
  induction l with
  | nil => simp
  | cons a l ih =>
    obtain ⟨ha, hl⟩ := List.pairwise_cons.mp hl
    obtain ⟨front, back, hcons, hsort, hfront, hback⟩ := mergeSort_cons_cut trans total a l
    have ih := ih hl
    rw [hsort, List.pairwise_append] at ih
    have hmem {b : α} (hb : b ∈ back) : b ∈ l := by
      have hb : b ∈ l.mergeSort le := hsort ▸ List.mem_append_right front hb
      exact List.mem_mergeSort.mp hb
    rw [hcons, List.pairwise_append]
    have hhead : ∀ b ∈ back, le a b = true ∧ (le b a = true → R a b) :=
      fun b hb => ⟨hback b hb, fun _ => ha b (hmem hb)⟩
    refine ⟨ih.1, List.pairwise_cons.mpr ⟨hhead, ih.2.1⟩, ?_⟩
    intro b hb c hc
    rcases List.mem_cons.mp hc with rfl | hc
    · have hbc := total c b
      rw [hfront b hb, Bool.false_or] at hbc
      exact ⟨hbc, fun hcb => by rw [hfront b hb] at hcb; cases hcb⟩
    · exact ih.2.2 b hb c hc

theorem filter_mergeSort (p : α → Bool) (l : List α) :
    (l.mergeSort le).filter p = (l.filter p).mergeSort le := by
  induction l with
  | nil => simp
  | cons a l ih =>
    obtain ⟨front, back, hcons, hsort, hfront, hback⟩ := mergeSort_cons_cut trans total a l
    rw [hsort, List.filter_append] at ih
    rw [hcons, List.filter_append]
    by_cases ha : p a = true
    · obtain ⟨front', back', hcons', hsort', hfront', hback'⟩ :=
        mergeSort_cons_cut trans total a (l.filter p)
      rw [hsort'] at ih
      rw [List.filter_cons_of_pos ha, List.filter_cons_of_pos ha, hcons']
      -- both lists are cut where the elements begin that do not come before `a`
      have hcut {f b : List α} (hf : ∀ x ∈ f, le a x = false) (hb : ∀ x ∈ b, le a x = true) :
          (f ++ b).filter (fun x => !le a x) = f ∧ (f ++ b).filter (le a) = b := by
        rw [List.filter_append, List.filter_append]
        simp +contextual [List.filter_eq_nil_iff.mpr, List.filter_eq_self.mpr, hf, hb]
      obtain ⟨hf, hb⟩ := hcut (fun x hx => hfront x (List.mem_filter.mp hx).1)
        (fun x hx => hback x (List.mem_filter.mp hx).1)
      obtain ⟨hf', hb'⟩ := hcut hfront' hback'
      rw [ih] at hf hb
      rw [← hf, ← hb, hf', hb']
    · rw [List.filter_cons_of_neg ha, List.filter_cons_of_neg ha, ih]

/-- Elements between which the order does not decide stay as they are. -/
theorem filter_ties_mergeSort (a : α) (l : List α) :
    (l.mergeSort le).filter (fun b => le a b && le b a) = l.filter fun b => le a b && le b a := by
  rw [filter_mergeSort trans total]
  refine List.mergeSort_of_pairwise (List.pairwise_iff_forall_sublist.mpr fun {b c} hsub => ?_)
  have hb := (List.mem_filter.mp (hsub.subset (List.mem_cons_self (a := b)))).2
  have hc := (List.mem_filter.mp (hsub.subset (show c ∈ [b, c] by simp))).2
  rw [Bool.and_eq_true] at hb hc
  exact trans b a c hb.2 hc.1

omit trans in
theorem mem_iff_of_ties {l l' : List α}
    (h : ∀ a, l.filter (fun b => le a b && le b a) = l'.filter fun b => le a b && le b a) (a : α) :
    a ∈ l ↔ a ∈ l' := by
  have hself : (le a a && le a a) = true := by simpa using total a a
  have hfilter : a ∈ l.filter (fun b => le a b && le b a) ↔
      a ∈ l'.filter fun b => le a b && le b a := by rw [h a]
  simpa only [List.mem_filter, hself, and_true] using hfilter

omit trans in
/-- Two lists in order are the same if they agree wherever the order does not decide. -/
theorem eq_of_ties {l l' : List α} (hl : l.Pairwise fun a b => le a b = true)
    (hl' : l'.Pairwise fun a b => le a b = true)
    (h : ∀ a, l.filter (fun b => le a b && le b a) = l'.filter fun b => le a b && le b a) :
    l = l' := by
  have hfirst {x y : α} {r : List α} (hr : (x :: r).Pairwise fun a b => le a b = true)
      (hy : y ∈ x :: r) : le x y = true := by
    rcases List.mem_cons.mp hy with rfl | hy
    · simpa using total y y
    · exact List.rel_of_pairwise_cons hr hy
  induction l generalizing l' with
  | nil =>
    refine (List.eq_nil_iff_forall_not_mem.mpr fun a ha => ?_).symm
    exact List.not_mem_nil ((mem_iff_of_ties total h a).mpr ha)
  | cons a l ih =>
    cases l' with
    | nil => exact absurd ((mem_iff_of_ties total h a).mp List.mem_cons_self) List.not_mem_nil
    | cons b l' =>
      -- the two heads come before each other, so they head the same ties
      have hab : le a b = true := hfirst hl ((mem_iff_of_ties total h b).mpr List.mem_cons_self)
      have hba : le b a = true := hfirst hl' ((mem_iff_of_ties total h a).mp List.mem_cons_self)
      have haa : le a a = true := hfirst hl List.mem_cons_self
      have hheads := h a
      simp only [List.filter_cons, haa, hab, hba, Bool.and_self, if_true, List.cons.injEq] at hheads
      obtain ⟨rfl, -⟩ := hheads
      refine congrArg (a :: ·) (ih hl.of_cons hl'.of_cons fun c => ?_)
      have hc := h c
      simp only [List.filter_cons] at hc
      split at hc
      · exact (List.cons.inj hc).2
      · exact hc

theorem mergeSort_eq_of_ties {l l' : List α}
    (h : ∀ a, l.filter (fun b => le a b && le b a) = l'.filter fun b => le a b && le b a) :
    l.mergeSort le = l'.mergeSort le :=
  eq_of_ties total (List.pairwise_mergeSort trans total l)
    (List.pairwise_mergeSort trans total l') fun a => by
      rw [filter_ties_mergeSort trans total, filter_ties_mergeSort trans total, h a]

end Stable

/-! ## Merging -/

section Merge

variable {le : α → α → Bool} {a : α} {l r : List α}

theorem cons_merge_of_forall (h : ∀ b ∈ r, le a b = true) :
    (a :: l).merge r le = a :: l.merge r le := by
  cases r with
  | nil => simp
  | cons b r => rw [List.cons_merge_cons, if_pos (h b List.mem_cons_self)]

theorem merge_cons_of_forall (h : ∀ b ∈ l, le b a = false) :
    l.merge (a :: r) le = a :: l.merge r le := by
  cases l with
  | nil => simp
  | cons b l => rw [List.cons_merge_cons, if_neg (by simp [h b List.mem_cons_self])]

/-- A list in strict order is the merge of its elements of a kind with all others. -/
theorem merge_filter_not (hl : l.Pairwise fun a b => le a b = true ∧ le b a = false)
    (p : α → Bool) : (l.filter p).merge (l.filter fun a => !p a) le = l := by
  induction l with
  | nil => simp
  | cons a l ih =>
    obtain ⟨ha, hl⟩ := List.pairwise_cons.mp hl
    by_cases hp : p a = true
    · rw [List.filter_cons_of_pos hp, List.filter_cons_of_neg (by simp [hp]),
        cons_merge_of_forall fun b hb => (ha b (List.mem_filter.mp hb).1).1, ih hl]
    · rw [List.filter_cons_of_neg hp, List.filter_cons_of_pos (by simp [hp]),
        merge_cons_of_forall fun b hb => (ha b (List.mem_filter.mp hb).1).2, ih hl]

end Merge

end CaseCover
