import CaseCover.Proofs.Issue.Order

/-!
# Leaving out repeated issues

Of the issues with one key the first one is kept. A choice of issues that goes by their keys can be
made before or after that (`filter_firstOfKeys`): it keeps all issues of a key or none of them. As
sorting is stable, the same holds for the sorted list of distinct issues (`filter_distinct`).

The distinct issues of a list are one for each key of the list, each the first one with its key, in
their order and, where that does not decide, in their turn (`IsDistinctOf`). There is exactly one
list like that (`distinct_oneOfEachKey`).
-/

namespace CaseCover.Issue

/-- A choice of issues that repetitions share. -/
def GoesByKey (p : Issue → Bool) : Prop := ∀ i j : Issue, i.key = j.key → p i = p j

/-- Only keys that occur in the list matter. -/
theorem firstOfKeys_congr {seen seen' : List (Text × Text × Text × Int × Int)} {is : List Issue}
    (h : ∀ i ∈ is, i.key ∈ seen ↔ i.key ∈ seen') : firstOfKeys seen is = firstOfKeys seen' is := by
  induction is generalizing seen seen' with
  | nil => rfl
  | cons i is ih =>
    obtain ⟨hi, his⟩ := List.forall_mem_cons.mp h
    have hseen : seen.contains i.key = seen'.contains i.key := by
      rw [Bool.eq_iff_iff, List.contains_iff_mem, List.contains_iff_mem, hi]
    have hcons : firstOfKeys (i.key :: seen) is = firstOfKeys (i.key :: seen') is :=
      ih fun j hj => by rw [List.mem_cons, List.mem_cons, his j hj]
    rw [firstOfKeys, firstOfKeys, hseen, ih his, hcons]

/-- Picking issues by their keys can be done before those repeated are left out, or after. -/
theorem filter_firstOfKeys {p : Issue → Bool} (hp : GoesByKey p)
    (seen : List (Text × Text × Text × Int × Int)) (is : List Issue) :
    (firstOfKeys seen is).filter p = firstOfKeys seen (is.filter p) := by
  induction is generalizing seen with
  | nil => rfl
  | cons i is ih =>
    rw [firstOfKeys]
    by_cases hi : p i = true
    · rw [List.filter_cons_of_pos hi, firstOfKeys]
      split
      · exact ih seen
      · rw [List.filter_cons_of_pos hi, ih]
    · -- no issue that is chosen has the key of `i`
      have hother : ∀ j ∈ is.filter p, j.key ∈ i.key :: seen ↔ j.key ∈ seen := by
        intro j hj
        have hne : j.key ≠ i.key := fun hkey => hi (hp j i hkey ▸ (List.mem_filter.mp hj).2)
        rw [List.mem_cons, or_iff_right hne]
      rw [List.filter_cons_of_neg hi]
      split
      · exact ih seen
      · rw [List.filter_cons_of_neg hi, ih, firstOfKeys_congr hother]

theorem filter_distinct {p : Issue → Bool} (hp : GoesByKey p) (is : List Issue) :
    (distinct is).filter p = distinct (is.filter p) := by
  rw [distinct, filter_sort, filter_firstOfKeys hp, distinct]

theorem firstOfKeys_subset (seen : List (Text × Text × Text × Int × Int)) (is : List Issue) :
    firstOfKeys seen is ⊆ is := by
  induction is generalizing seen with
  | nil => exact List.Subset.refl _
  | cons i is ih =>
    rw [firstOfKeys]
    split
    · exact List.subset_cons_of_subset _ (ih _)
    · exact List.cons_subset_cons _ (ih _)

theorem distinct_subset (is : List Issue) : distinct is ⊆ is :=
  fun _ hi => firstOfKeys_subset [] is ((sort_perm _).subset hi)

/-! ## The issues that are kept -/

/-- What is kept is the first issue with its key, if the key was not met before. -/
theorem mem_firstOfKeys_iff {seen : List (Text × Text × Text × Int × Int)} {is : List Issue}
    {i : Issue} :
    i ∈ firstOfKeys seen is ↔ i.key ∉ seen ∧ is.find? (fun j => j.key = i.key) = some i := by
  induction is generalizing seen with
  | nil => simp [firstOfKeys]
  | cons a is ih =>
    rw [firstOfKeys, List.find?_cons]
    simp only [List.contains_iff_mem]
    by_cases hkey : a.key = i.key
    · -- `a` is the first issue with the key of `i`
      simp only [hkey, decide_true, Option.some.injEq]
      split
      · next hseen => simp [ih, hseen]
      · next hseen => simp [ih, hseen, eq_comm]
    · simp only [hkey, decide_false]
      have hne : i ≠ a := fun h => hkey (h ▸ rfl)
      split
      · exact ih
      · rw [List.mem_cons, or_iff_right hne, ih, List.mem_cons, or_iff_right (Ne.symm hkey)]

/-- No two issues that are kept have one key. -/
theorem firstOfKeys_pairwise_key (seen : List (Text × Text × Text × Int × Int))
    (is : List Issue) : (firstOfKeys seen is).Pairwise fun i j => i.key ≠ j.key := by
  induction is generalizing seen with
  | nil => exact .nil
  | cons a is ih =>
    rw [firstOfKeys]
    split
    · exact ih seen
    · refine .cons (fun j hj hkey => ?_) (ih _)
      exact (mem_firstOfKeys_iff.mp hj).1 (hkey ▸ List.mem_cons_self)

/-- What is kept stays in its order. -/
theorem firstOfKeys_pairwise_idxOf (seen : List (Text × Text × Text × Int × Int))
    (is : List Issue) : (firstOfKeys seen is).Pairwise fun i j => is.idxOf i < is.idxOf j := by
  induction is generalizing seen with
  | nil => exact .nil
  | cons a is ih =>
    -- an issue that is kept later is not `a`, so it is found one place later than without `a`
    have hlater {seen} {j : Issue} (hj : j ∈ firstOfKeys seen is) (ha : a.key ∈ seen) :
        (a :: is).idxOf j = is.idxOf j + 1 := by
      have hne : a ≠ j := fun h => (mem_firstOfKeys_iff.mp hj).1 (h ▸ ha)
      rw [List.idxOf_cons, beq_false_of_ne hne]
      rfl
    have hrest {seen} (ha : a.key ∈ seen) :
        (firstOfKeys seen is).Pairwise fun i j => (a :: is).idxOf i < (a :: is).idxOf j := by
      refine List.Pairwise.imp_of_mem (fun hi hj hlt => ?_) (ih seen)
      rw [hlater hi ha, hlater hj ha]
      exact Nat.succ_lt_succ hlt
    rw [firstOfKeys]
    split
    · next hseen => exact hrest (List.contains_iff_mem.mp hseen)
    · refine .cons (fun j hj => ?_) (hrest List.mem_cons_self)
      rw [List.idxOf_cons_self, hlater hj List.mem_cons_self]
      exact Nat.succ_pos _

theorem mem_map_key_firstOfKeys {is : List Issue} {k : Text × Text × Text × Int × Int} :
    k ∈ (firstOfKeys [] is).map key ↔ k ∈ is.map key := by
  constructor
  · exact fun hk => List.map_subset key (firstOfKeys_subset [] is) hk
  · intro hk
    obtain ⟨i, hi, rfl⟩ := List.mem_map.mp hk
    obtain ⟨j, hj⟩ := Option.isSome_iff_exists.mp
      (List.find?_isSome (p := fun j : Issue => decide (j.key = i.key)).mpr ⟨i, hi, by simp⟩)
    have hkey : j.key = i.key := by simpa using List.find?_some hj
    refine List.mem_map.mpr ⟨j, mem_firstOfKeys_iff.mpr ⟨List.not_mem_nil, ?_⟩, hkey⟩
    rw [hkey]
    exact hj

/-- Issues with new keys, each its own, are all kept. -/
theorem firstOfKeys_eq_self {is : List Issue} {seen : List (Text × Text × Text × Int × Int)}
    (hnew : ∀ i ∈ is, i.key ∉ seen) (h : is.Pairwise fun i j => i.key ≠ j.key) :
    firstOfKeys seen is = is := by
  induction is generalizing seen with
  | nil => rfl
  | cons a is ih =>
    obtain ⟨ha, his⟩ := List.pairwise_cons.mp h
    obtain ⟨hnewa, hnewis⟩ := List.forall_mem_cons.mp hnew
    rw [firstOfKeys, if_neg (mt List.contains_iff_mem.mp hnewa)]
    refine congrArg _ (ih (fun i hi => ?_) his)
    rw [List.mem_cons, not_or]
    exact ⟨(ha i hi).symm, hnewis i hi⟩

/-- Later issues are kept if their keys are new to the earlier ones. -/
theorem firstOfKeys_append (seen : List (Text × Text × Text × Int × Int)) (is js : List Issue) :
    firstOfKeys seen (is ++ js) = firstOfKeys seen is ++ firstOfKeys (is.map key ++ seen) js := by
  induction is generalizing seen with
  | nil => rfl
  | cons a is ih =>
    rw [List.cons_append, firstOfKeys, firstOfKeys, List.map_cons]
    split
    · next hseen =>
      rw [ih]
      refine congrArg _ (firstOfKeys_congr fun j _ => ?_)
      grind
    · rw [ih, List.cons_append]
      refine congrArg _ (congrArg _ (firstOfKeys_congr fun j _ => ?_))
      grind

theorem firstOfKeys_eq_nil {is : List Issue} {seen : List (Text × Text × Text × Int × Int)}
    (h : ∀ i ∈ is, i.key ∈ seen) : firstOfKeys seen is = [] :=
  List.eq_nil_iff_forall_not_mem.mpr fun i hi =>
    (mem_firstOfKeys_iff.mp hi).1 (h i (firstOfKeys_subset seen is hi))

/-! ## One issue of each key -/

/-- A list has one issue of each key that occurs in another list. -/
structure IsDistinctOf (is ds : List Issue) : Prop where
  /-- The issues are in their order. -/
  ordered : ds.Pairwise Precedes
  /-- No two of them share their key. -/
  apart : ds.Pairwise fun i j => i.key ≠ j.key
  /-- No key is lost, and none is new. -/
  sameKeys : ∀ k, k ∈ ds.map key ↔ k ∈ is.map key
  /-- Each of them is the first one with its key. -/
  first : ∀ i ∈ ds, is.find? (fun j => j.key = i.key) = some i
  /-- Issues at one spot come in the order in which they first occur. -/
  inTurn : ds.Pairwise fun i j => i.spot = j.spot → is.idxOf i < is.idxOf j

/-- What holds of any two issues at one spot that follow each other holds in a sorted list, too. -/
theorem sort_pairwise_of_spot {R : Issue → Issue → Prop} {is : List Issue} (h : is.Pairwise R) :
    (sort is).Pairwise fun i j => i.spot = j.spot → R i j := by
  rw [List.pairwise_iff_forall_sublist]
  intro _ j hij hspot
  have hboth := hij.filter fun k => k.spot = j.spot
  rw [filter_spot_sort, List.filter_cons_of_pos (by simpa using hspot),
    List.filter_cons_of_pos (by simp), List.filter_nil] at hboth
  exact List.pairwise_iff_forall_sublist.mp h (hboth.trans List.filter_sublist)

theorem distinct_isDistinctOf (is : List Issue) : IsDistinctOf is (distinct is) where
  ordered := sort_pairwise _
  apart := (firstOfKeys_pairwise_key [] is).perm (sort_perm _).symm fun h => h.symm
  sameKeys _ := ((sort_perm _).map key).mem_iff.trans mem_map_key_firstOfKeys
  first _ hi := (mem_firstOfKeys_iff.mp ((sort_perm _).mem_iff.mp hi)).2
  inTurn := sort_pairwise_of_spot (firstOfKeys_pairwise_idxOf [] is)

/-- An issue is kept exactly if it is the first one with its key. -/
theorem IsDistinctOf.mem_iff {is ds : List Issue} (h : IsDistinctOf is ds) {i : Issue} :
    i ∈ ds ↔ is.find? (fun j => j.key = i.key) = some i := by
  refine ⟨h.first i, fun hi => ?_⟩
  obtain ⟨j, hj, hkey⟩ := List.mem_map.mp
    ((h.sameKeys i.key).mpr (List.mem_map.mpr ⟨i, List.mem_of_find?_eq_some hi, rfl⟩))
  have hfirst := h.first j hj
  rw [hkey, hi, Option.some.injEq] at hfirst
  exact hfirst ▸ hj

/-- There is only one such list. -/
theorem IsDistinctOf.unique {is ds ds' : List Issue} (h : IsDistinctOf is ds)
    (h' : IsDistinctOf is ds') : ds = ds' := by
  have hnodup {es : List Issue} (he : IsDistinctOf is es) : es.Nodup :=
    he.apart.imp fun hne heq => hne (congrArg key heq)
  have hperm : ds.Perm ds' := (List.perm_ext_iff_of_nodup (hnodup h) (hnodup h')).mpr fun i => by
    rw [h.mem_iff, h'.mem_iff]
  refine List.Perm.eq_of_pairwise (fun _ _ _ _ hij hji => ?_) (h.ordered.and h.inTurn)
    (h'.ordered.and h'.inTurn) hperm
  -- two issues that come before each other are at one spot, and there their turns decide
  have hspot := precedes_both_iff.mp ⟨hij.1, hji.1⟩
  exact absurd (hij.2 hspot.symm) (Nat.lt_asymm (hji.2 hspot))

/-- Leaving out repeated issues once is enough. -/
theorem distinct_distinct (is : List Issue) : distinct (distinct is) = distinct is := by
  have h := distinct_isDistinctOf is
  rw [distinct, firstOfKeys_eq_self (by simp) h.apart]
  exact List.mergeSort_of_pairwise (h.ordered.imp not_before_iff.mpr)

theorem distinct_append_self (is : List Issue) : distinct (is ++ is) = distinct is := by
  have hmet : ∀ i ∈ is, i.key ∈ is.map key ++ [] := fun i hi =>
    List.mem_append_left _ (List.mem_map_of_mem hi)
  rw [distinct, firstOfKeys_append, firstOfKeys_eq_nil hmet, List.append_nil]
  rfl

/-- Leaving out repeated issues gives the one list that has one issue of each key. Doing it twice,
or to a list that is repeated as a whole, makes no difference. -/
theorem distinct_oneOfEachKey (is : List Issue) :
    (∀ ds, distinct is = ds ↔ IsDistinctOf is ds) ∧ distinct (distinct is) = distinct is ∧
      distinct (is ++ is) = distinct is := by
  refine ⟨fun ds => ⟨?_, (distinct_isDistinctOf is).unique⟩, distinct_distinct is,
    distinct_append_self is⟩
  rintro rfl
  exact distinct_isDistinctOf is

end CaseCover.Issue
