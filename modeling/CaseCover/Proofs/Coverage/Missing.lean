import CaseCover.Coverage.Match
import CaseCover.Proofs.Coverage.Equality

/-!
# Missing values

The missing values of a domain are collected in an accumulator, last one first. `keptFrom` lists
what is added to it, in order; every fact about `missing` is proved about `keptFrom` by induction on
the domain.

Equality is not transitive when numbers have been rounded to 512 digits. Where a proof needs the
values that equal a value of the domain to equal each other, it asks for that value to be *sharp*
among the values of the domain and the handled ones (`Value.IsSharpIn`). A value that is kept
exactly is sharp among all values. One that has been rounded may equal both a handled value and one
that is not handled.
-/

namespace CaseCover

/-- A value occurs among others if it is the same as one of them. -/
theorem Value.occursIn_iff {vs : List Value} {v : Value} :
    Value.occursIn vs v = true ↔ ∃ w ∈ vs, w.same v = true := by
  simp [Value.occursIn]

theorem Value.occursIn_eq_false_iff {vs : List Value} {v : Value} :
    Value.occursIn vs v = false ↔ ∀ w ∈ vs, w.same v = false := by
  simp [Value.occursIn]

@[simp] theorem Value.occursIn_nil (v : Value) : Value.occursIn [] v = false := rfl

@[simp] theorem Value.occursIn_cons (w : Value) (vs : List Value) (v : Value) :
    Value.occursIn (w :: vs) v = (w.same v || Value.occursIn vs v) := rfl

@[simp] theorem Value.occursIn_append (us vs : List Value) (v : Value) :
    Value.occursIn (us ++ vs) v = (Value.occursIn us v || Value.occursIn vs v) := List.any_append

theorem Value.occursIn_eq_any (vs : List Value) (v : Value) :
    Value.occursIn vs v = vs.any v.same :=
  congrArg vs.any (funext fun w => Value.same_comm w v)

/-- The values of `domain` that are added to the missing ones when `found` are known. -/
def keptFrom (handled : List Value) : List Value → List Value → List Value
  | _, [] => []
  | found, v :: rest =>
    if Value.occursIn handled v || Value.occursIn found v then keptFrom handled found rest
    else v :: keptFrom handled (v :: found) rest

/-- The search gives what was found before and what is kept of the rest. -/
theorem missingFrom_eq (handled found domain : List Value) :
    missingFrom handled found domain = found.reverse ++ keptFrom handled found domain := by
  induction domain generalizing found with
  | nil => simp [missingFrom, keptFrom]
  | cons v rest ih =>
    rw [missingFrom, keptFrom]
    split
    · exact ih found
    · rw [ih (v :: found), List.reverse_cons, List.append_assoc]
      rfl

theorem missing_eq_keptFrom (domain handled : List Value) :
    missing domain handled = keptFrom handled [] domain := by
  rw [missing, missingFrom_eq]
  rfl

/-- What is kept is not handled, and in the order of the domain. -/
theorem keptFrom_sublist (handled found domain : List Value) :
    (keptFrom handled found domain).Sublist
      (domain.filter fun v => !Value.occursIn handled v) := by
  induction domain generalizing found with
  | nil => exact List.Sublist.refl _
  | cons v rest ih =>
    rw [keptFrom]
    by_cases hh : Value.occursIn handled v = true
    · rw [if_pos (by rw [hh]; rfl), List.filter_cons_of_neg (by simp [hh])]
      exact ih found
    rw [List.filter_cons_of_pos (by simpa using hh)]
    split
    · exact (ih found).cons v
    · exact (ih (v :: found)).cons_cons v

theorem occursIn_of_mem_keptFrom {handled found domain : List Value} {w : Value}
    (hw : w ∈ keptFrom handled found domain) : Value.occursIn found w = false := by
  induction domain generalizing found with
  | nil => cases hw
  | cons v rest ih =>
    rw [keptFrom] at hw
    split at hw
    · exact ih hw
    · next hv =>
      rcases List.mem_cons.mp hw with rfl | hw
      · rw [Bool.or_eq_true, not_or, Bool.not_eq_true, Bool.not_eq_true] at hv
        exact hv.2
      · have := ih hw
        rw [Value.occursIn_eq_false_iff] at this ⊢
        exact fun u hu => this u (List.mem_cons_of_mem v hu)

/-- No value is kept twice. -/
theorem keptFrom_pairwise (handled found domain : List Value) :
    (keptFrom handled found domain).Pairwise fun v w => v.same w = false := by
  induction domain generalizing found with
  | nil => exact List.Pairwise.nil
  | cons v rest ih =>
    rw [keptFrom]
    split
    · exact ih found
    · refine List.pairwise_cons.mpr ⟨fun w hw => ?_, ih (v :: found)⟩
      have := occursIn_of_mem_keptFrom hw
      rw [Value.occursIn_eq_false_iff] at this
      exact this v List.mem_cons_self

/-- A value of the domain that is not handled is kept, or equals one that was found before it. -/
theorem mem_or_occursIn_keptFrom {handled domain : List Value} {v : Value} (hv : v ∈ domain)
    (hh : Value.occursIn handled v = false) (found : List Value) :
    v ∈ keptFrom handled found domain ∨
      Value.occursIn (found ++ keptFrom handled found domain) v = true := by
  induction domain generalizing found with
  | nil => cases hv
  | cons u rest ih =>
    rw [keptFrom]
    rcases List.mem_cons.mp hv with rfl | hv
    · rw [hh, Bool.false_or]
      split
      · next hf =>
        right
        obtain ⟨w, hw, hsame⟩ := Value.occursIn_iff.mp hf
        exact Value.occursIn_iff.mpr ⟨w, List.mem_append_left _ hw, hsame⟩
      · exact Or.inl List.mem_cons_self
    · split
      · exact ih hv found
      · -- `u` is found now, and counts among what was found before the others
        rcases ih hv (u :: found) with h | h
        · exact Or.inl (List.mem_cons_of_mem u h)
        · right
          obtain ⟨w, hw, hsame⟩ := Value.occursIn_iff.mp h
          refine Value.occursIn_iff.mpr ⟨w, ?_, hsame⟩
          simpa [or_left_comm] using hw

/-! ## What is missing -/

/-- Missing values are unhandled values of the domain, in its order. -/
theorem missing_sublist (domain handled : List Value) :
    (missing domain handled).Sublist (domain.filter fun v => !Value.occursIn handled v) := by
  rw [missing_eq_keptFrom]
  exact keptFrom_sublist handled [] domain

/-- No two missing values are equal. -/
theorem missing_pairwise (domain handled : List Value) :
    (missing domain handled).Pairwise fun v w => v.same w = false := by
  rw [missing_eq_keptFrom]
  exact keptFrom_pairwise handled [] domain

theorem mem_missing {domain handled : List Value} {w : Value} (hw : w ∈ missing domain handled) :
    w ∈ domain ∧ Value.occursIn handled w = false := by
  have := (missing_sublist domain handled).subset hw
  simpa using this

/-- Every unhandled value that comes from a constant equals a missing one. -/
theorem occursIn_missing {domain handled : List Value} {v : Value} (hv : v ∈ domain)
    (hp : v.IsProper) (hh : Value.occursIn handled v = false) :
    Value.occursIn (missing domain handled) v = true := by
  rw [missing_eq_keptFrom]
  rcases mem_or_occursIn_keptFrom hv hh [] with h | h
  · exact Value.occursIn_iff.mpr ⟨v, h, Value.same_self hp⟩
  · exact h

/-- Something is missing as soon as one value of the domain is not handled. -/
theorem missing_ne_nil_iff {domain handled : List Value} :
    missing domain handled ≠ [] ↔ ∃ v ∈ domain, Value.occursIn handled v = false := by
  constructor
  · intro h
    obtain ⟨w, hw⟩ := List.exists_mem_of_ne_nil _ h
    exact ⟨w, mem_missing hw⟩
  · rintro ⟨v, hv, hh⟩ hnil
    rw [missing_eq_keptFrom] at hnil
    rcases mem_or_occursIn_keptFrom hv hh [] with h | h
    · rw [hnil] at h
      cases h
    · rw [hnil] at h
      cases h

/-- Nothing is missing exactly if every value of the domain is handled. -/
theorem missing_eq_nil_iff {domain handled : List Value} :
    missing domain handled = [] ↔ ∀ v ∈ domain, Value.occursIn handled v = true := by
  rw [← Decidable.not_iff_not, ← ne_eq, missing_ne_nil_iff]
  simp

/-! ## Sharp values -/

namespace Value

/-- Values of the list that equal `v` equal each other. -/
def IsSharpIn (vs : List Value) (v : Value) : Prop :=
  ∀ a ∈ vs, ∀ b ∈ vs, a.same v = true → v.same b = true → a.same b = true

instance (vs : List Value) (v : Value) : Decidable (v.IsSharpIn vs) :=
  inferInstanceAs (Decidable (∀ a ∈ vs, ∀ b ∈ vs, a.same v = true → v.same b = true →
    a.same b = true))

/-- A value that is kept exactly is sharp among all values. -/
theorem isSharpIn_of_isExact {v : Value} (hv : v.isExact = true) (vs : List Value) :
    v.IsSharpIn vs :=
  fun _ _ _ _ => same_trans hv

variable {us vs : List Value} {v w : Value}

/-- Among fewer values, a value stays sharp. -/
theorem IsSharpIn.mono (h : v.IsSharpIn vs) (hsub : us ⊆ vs) : v.IsSharpIn us :=
  fun a ha b hb => h a (hsub ha) b (hsub hb)

/-- What equals a sharp value occurs where the sharp value occurs. -/
theorem IsSharpIn.occursIn (h : v.IsSharpIn vs) (hus : us ⊆ vs) (hw : w ∈ vs)
    (hv : Value.occursIn us v = true) (hvw : v.same w = true) : Value.occursIn us w = true := by
  obtain ⟨u, hu, huv⟩ := occursIn_iff.mp hv
  exact occursIn_iff.mpr ⟨u, hu, h u (hus hu) w hw huv hvw⟩

end Value

/-! ## Matches -/

namespace Match

/-- The values of the domain. -/
def values (m : Match) : List Value := m.domain.map (·.value)

theorem missing_eq (m : Match) : m.missing = CaseCover.missing m.values m.handled := rfl

/-- Every value of the domain is sharp among the values of the domain and the handled ones. -/
def IsSharp (m : Match) : Prop := ∀ v ∈ m.values, v.IsSharpIn (m.values ++ m.handled)

instance (m : Match) : Decidable m.IsSharp :=
  inferInstanceAs (Decidable (∀ v ∈ m.values, v.IsSharpIn (m.values ++ m.handled)))

/-- If all values of the domain are kept exactly, the match is sharp. -/
theorem isSharp_of_isExact {m : Match} (h : ∀ l ∈ m.domain, l.value.isExact = true) :
    m.IsSharp := by
  intro v hv
  obtain ⟨l, hl, rfl⟩ := List.mem_map.mp hv
  exact Value.isSharpIn_of_isExact (h l hl) _

end Match

end CaseCover
