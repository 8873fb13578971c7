import CaseCover.Enum
import CaseCover.Proofs.Sorting

/-!
# Flags

Whether constants look like flags depends on their values only, not on their order: the values are
sorted, without repetitions, before they are looked at.
-/

namespace CaseCover.Enum

/-- A number as a 64 bit word, if it is one. -/
def word? : Option Const → Option Nat
  | some (.real (.int v)) => if 0 ≤ v && v < (2 ^ 64 : Nat) then some v.toNat else none
  | _ => none

theorem words?_cons (v : Option Const) (vs : List (Option Const)) :
    words? (v :: vs) = (word? v).bind fun w => (words? vs).map (w :: ·) := by
  rw [words?.eq_def]
  split
  · next h => cases h
  · next i rest h =>
    cases h
    simp only [word?]
    split <;> rfl
  · next hno h =>
    cases h
    unfold word?
    split
    · next i => exact absurd rfl (hno i)
    · rfl

/-- There are words exactly if every value is one. -/
theorem words?_eq_some_iff {vs : List (Option Const)} {ws : List Nat} :
    words? vs = some ws ↔ (∀ v ∈ vs, (word? v).isSome = true) ∧ ws = vs.filterMap word? := by
  induction vs generalizing ws with
  | nil =>
    constructor
    · rintro ⟨⟩
      exact ⟨fun v hv => absurd hv List.not_mem_nil, rfl⟩
    · rintro ⟨-, rfl⟩
      rfl
  | cons v vs ih =>
    rw [words?_cons]
    cases hv : word? v with
    | none => simp [hv]
    | some w =>
      simp only [Option.bind_some, Option.map_eq_some_iff, ih, List.forall_mem_cons, hv,
        Option.isSome_some, true_and, List.filterMap_cons]
      constructor
      · rintro ⟨ws, ⟨hvs, rfl⟩, rfl⟩
        exact ⟨hvs, rfl⟩
      · rintro ⟨hvs, rfl⟩
        exact ⟨_, ⟨hvs, rfl⟩, rfl⟩

theorem exists_words?_of_perm {vs vs' : List (Option Const)} (h : vs.Perm vs') {ws : List Nat}
    (hws : words? vs = some ws) : ∃ ws', words? vs' = some ws' ∧ ws.Perm ws' := by
  obtain ⟨hall, rfl⟩ := words?_eq_some_iff.mp hws
  have hall' : ∀ v ∈ vs', (word? v).isSome = true := fun v hv => hall v (h.mem_iff.mpr hv)
  exact ⟨_, words?_eq_some_iff.mpr ⟨hall', rfl⟩, h.filterMap word?⟩

theorem sortedDistinct_eq_of_perm {ms ns : List Nat} (h : ms.Perm ns) :
    sortedDistinct ms = sortedDistinct ns := by
  have hdistinct : ms.eraseDups.Perm ns.eraseDups := by
    refine (List.perm_ext_iff_of_nodup (eraseDups_nodup ms) (eraseDups_nodup ns)).mpr fun n => ?_
    rw [List.mem_eraseDups, List.mem_eraseDups, h.mem_iff]
  have hsorted (l : List Nat) : (l.mergeSort fun a b => a ≤ b).Pairwise (· ≤ ·) :=
    (List.pairwise_mergeSort (decide_le_trans id) (decide_le_total id) l).imp of_decide_eq_true
  refine List.Perm.eq_of_pairwise (fun _ _ _ _ => Nat.le_antisymm) (hsorted _) (hsorted _) ?_
  exact (List.mergeSort_perm _ _).trans (hdistinct.trans (List.mergeSort_perm _ _).symm)

theorem looksLikeFlags_eq_of_perm {vs vs' : List (Option Const)} (h : vs.Perm vs') :
    looksLikeFlags vs = looksLikeFlags vs' := by
  unfold looksLikeFlags
  cases hws : words? vs with
  | none =>
    cases hws' : words? vs' with
    | none => rfl
    | some ws' =>
      obtain ⟨ws, hsome, -⟩ := exists_words?_of_perm h.symm hws'
      rw [hws] at hsome
      cases hsome
  | some ws =>
    obtain ⟨ws', hsome, hperm⟩ := exists_words?_of_perm h hws
    simp only [hsome, sortedDistinct_eq_of_perm hperm]

end CaseCover.Enum
