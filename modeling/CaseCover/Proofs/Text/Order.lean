import CaseCover.Proofs.Sorting
import CaseCover.Text

/-!
# The order of texts

The byte-wise order is the lexicographic order of lists of bytes, so it is linear. A sorted list
depends only on which texts it holds and how often (`sort_eq_of_perm`), and a list of distinct texts
in order only on which texts these are (`sort_eraseDups_eq_of_mem_iff`).
-/

namespace CaseCover.Text

/-- The comparison byte by byte is the order of lists. -/
theorem less_iff_lt {s t : Text} : less s t = true ↔ s < t := by
  induction s generalizing t with
  | nil =>
    cases t with
    | nil => simp [less]
    | cons b t => simp [less]
  | cons a s ih =>
    cases t with
    | nil => simp [less]
    | cons b t => simp [less, List.cons_lt_cons_iff, ih]

theorem lessEq_iff_le {s t : Text} : lessEq s t = true ↔ s ≤ t := by
  rw [lessEq, Bool.not_eq_true', ← Bool.not_eq_true, less_iff_lt, List.not_lt]

theorem lessEq_total (s t : Text) : (lessEq s t || lessEq t s) = true := by
  rw [Bool.or_eq_true, lessEq_iff_le, lessEq_iff_le]
  exact List.le_total s t

theorem lessEq_trans (s t u : Text) (hst : lessEq s t = true) (htu : lessEq t u = true) :
    lessEq s u = true := by
  rw [lessEq_iff_le] at hst htu ⊢
  exact List.le_trans hst htu

theorem lessEq_antisymm {s t : Text} (hst : lessEq s t = true) (hts : lessEq t s = true) :
    s = t := by
  rw [lessEq_iff_le] at hst hts
  exact List.le_antisymm hst hts

theorem sort_perm (ts : List Text) : (sort ts).Perm ts := List.mergeSort_perm ts lessEq

/-- Sorted texts are in order. -/
theorem sort_pairwise (ts : List Text) : (sort ts).Pairwise fun s t => lessEq s t = true :=
  List.pairwise_mergeSort lessEq_trans lessEq_total ts

/-- What is sorted depends only on the texts and how often each of them occurs. -/
theorem sort_eq_of_perm {ts us : List Text} (h : ts.Perm us) : sort ts = sort us :=
  List.Perm.eq_of_pairwise (fun _ _ _ _ => lessEq_antisymm) (sort_pairwise ts) (sort_pairwise us)
    ((sort_perm ts).trans (h.trans (sort_perm us).symm))

/-! ## Distinct texts -/

/-- Sorting and leaving repetitions out loses no text. -/
theorem mem_sort_eraseDups {ts : List Text} {t : Text} : t ∈ sort ts.eraseDups ↔ t ∈ ts :=
  (sort_perm ts.eraseDups).mem_iff.trans List.mem_eraseDups

theorem sort_eraseDups_nodup (ts : List Text) : (sort ts.eraseDups).Nodup :=
  (sort_perm ts.eraseDups).nodup_iff.mpr (eraseDups_nodup ts)

/-- Distinct texts in order grow strictly. -/
theorem sort_eraseDups_pairwise (ts : List Text) :
    (sort ts.eraseDups).Pairwise fun s t => less s t = true := by
  have hboth := (sort_pairwise ts.eraseDups).and (sort_eraseDups_nodup ts)
  refine hboth.imp fun {s t} h => ?_
  cases hless : less s t with
  | true => rfl
  | false => exact absurd (lessEq_antisymm h.1 (by rw [lessEq, hless]; rfl)) h.2

/-- The sorted texts depend only on which ones there are. -/
theorem sort_eraseDups_eq_of_mem_iff {ts us : List Text} (h : ∀ t, t ∈ ts ↔ t ∈ us) :
    sort ts.eraseDups = sort us.eraseDups := by
  refine sort_eq_of_perm ((List.perm_ext_iff_of_nodup (eraseDups_nodup ts) (eraseDups_nodup us)).mpr
    fun t => ?_)
  rw [List.mem_eraseDups, List.mem_eraseDups, h]

end CaseCover.Text
