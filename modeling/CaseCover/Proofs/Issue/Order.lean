import CaseCover.Issue
import CaseCover.Proofs.Text.Order

/-!
# The order of issues

Issues come by file, line, column and rule (`Precedes`). Sorting puts them in this order and keeps
the order of issues that agree in all four (`filter_spot_sort`), so what is sorted depends only on
which issues there are at each spot and in which order they came (`sort_eq_of_spots`).
-/

namespace CaseCover.Issue

/-- What the order of issues goes by. -/
def spot (i : Issue) : Text × Int × Int × Text :=
  (i.filename, i.start.line, i.start.column, i.rule)

/-- An issue comes before another one or is at the same spot: by file, then line, column and
rule. -/
def Precedes (a b : Issue) : Prop :=
  a.filename < b.filename ∨ a.filename = b.filename ∧
    (a.start.line < b.start.line ∨ a.start.line = b.start.line ∧
      (a.start.column < b.start.column ∨ a.start.column = b.start.column ∧ a.rule ≤ b.rule))

theorem Precedes.trans {a b c : Issue} (hab : Precedes a b) (hbc : Precedes b c) :
    Precedes a c := by
  have hfile : a.filename < b.filename → b.filename < c.filename → a.filename < c.filename :=
    List.lt_trans
  have hrule : a.rule ≤ b.rule → b.rule ≤ c.rule → a.rule ≤ c.rule := List.le_trans
  unfold Precedes at *
  grind

/-- Of two issues one precedes the other. -/
theorem Precedes.total (a b : Issue) : Precedes a b ∨ Precedes b a := by
  have hfile : a.filename ≤ b.filename ∨ b.filename ≤ a.filename := List.le_total _ _
  have hrule : a.rule ≤ b.rule ∨ b.rule ≤ a.rule := List.le_total _ _
  rw [List.le_iff_lt_or_eq, List.le_iff_lt_or_eq] at hfile
  unfold Precedes
  grind

/-- Only issues at one spot come before each other. -/
theorem precedes_both_iff {a b : Issue} : Precedes a b ∧ Precedes b a ↔ b.spot = a.spot := by
  have hfile : a.filename < b.filename → ¬ b.filename < a.filename := List.lt_asymm
  have hself : ¬ a.filename < a.filename := List.lt_irrefl _
  have hrule : a.rule ≤ b.rule → b.rule ≤ a.rule → a.rule = b.rule := List.le_antisymm
  have hrefl : a.rule ≤ a.rule := List.le_refl _
  simp only [spot, Prod.mk.injEq]
  unfold Precedes
  grind

theorem before_iff {a b : Issue} : b.before a = true ↔ ¬ Precedes a b := by
  have hfile : a.filename < b.filename ∨ a.filename = b.filename ∨ b.filename < a.filename := by
    have h := List.le_total a.filename b.filename
    rw [List.le_iff_lt_or_eq, List.le_iff_lt_or_eq] at h
    grind
  have hrule : b.rule < a.rule ↔ ¬ a.rule ≤ b.rule := List.not_le.symm
  have hasymm : a.filename < b.filename → ¬ b.filename < a.filename := List.lt_asymm
  unfold before Precedes
  split
  · rw [Text.less_iff_lt]
    grind
  · split
    · rw [decide_eq_true_iff]
      grind
    · split
      · rw [decide_eq_true_iff]
        grind
      · rw [Text.less_iff_lt]
        grind

/-- The comparison of the sort says which issues precede others. -/
theorem not_before_iff {a b : Issue} : (!b.before a) = true ↔ Precedes a b := by
  rw [Bool.not_eq_true', ← Bool.not_eq_true, before_iff, Classical.not_not]

/-! ## Sorting -/

theorem not_before_trans (a b c : Issue) (hab : (!b.before a) = true) (hbc : (!c.before b) = true) :
    (!c.before a) = true := by
  rw [not_before_iff] at *
  exact hab.trans hbc

theorem not_before_total (a b : Issue) : ((!b.before a) || !a.before b) = true := by
  rw [Bool.or_eq_true, not_before_iff, not_before_iff]
  exact Precedes.total a b

/-- Sorted issues can be computed by insertion. -/
theorem sort_eq_insertionSort (is : List Issue) :
    sort is = is.insertionSort fun a b => (!b.before a) = true :=
  mergeSort_eq_insertionSort not_before_trans not_before_total is

theorem sort_perm (is : List Issue) : (sort is).Perm is := List.mergeSort_perm is _

theorem sort_pairwise (is : List Issue) : (sort is).Pairwise Precedes :=
  (List.pairwise_mergeSort not_before_trans not_before_total is).imp not_before_iff.mp

/-- Picking issues can be done before sorting or after. -/
theorem filter_sort (p : Issue → Bool) (is : List Issue) :
    (sort is).filter p = sort (is.filter p) :=
  filter_mergeSort not_before_trans not_before_total p is

/-- Issues tie exactly if they have the same spot. -/
theorem isTie_iff_spot (i j : Issue) :
    ((!j.before i) && !i.before j) = decide (j.spot = i.spot) := by
  rw [Bool.eq_iff_iff, Bool.and_eq_true, not_before_iff, not_before_iff, decide_eq_true_iff]
  exact precedes_both_iff

/-- Issues at one spot keep their order. -/
theorem filter_spot_sort (i : Issue) (is : List Issue) :
    (sort is).filter (fun j => j.spot = i.spot) = is.filter fun j => j.spot = i.spot := by
  have h := filter_ties_mergeSort not_before_trans not_before_total i is
  simp only [isTie_iff_spot] at h
  exact h

/-- Issues are sorted alike if those of each spot come in the same order. -/
theorem sort_eq_of_spots {is js : List Issue}
    (h : ∀ i : Issue, is.filter (fun j => j.spot = i.spot) = js.filter fun j => j.spot = i.spot) :
    sort is = sort js := by
  refine mergeSort_eq_of_ties not_before_trans not_before_total fun i => ?_
  simpa only [isTie_iff_spot] using h i

end CaseCover.Issue
