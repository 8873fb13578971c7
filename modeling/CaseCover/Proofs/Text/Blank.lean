import CaseCover.Proofs.Text.CodePoints

/-!
# White space

The white space in front of a text is blank (`isBlank_leadingSpace`). No byte of a blank text is
replaced, so it is the same as its code points (`IsBlank.flatMap_codes`), its parts are blank as
well, and whether it starts a text can be told from the code points of the white space in front of
the text (`IsBlank.prefix_iff`).
-/

namespace CaseCover.Text

/-- A text of white space only. -/
def IsBlank (t : Text) : Prop := ∀ c ∈ characters t, c.isSpace = true

variable {s t : Text}

theorem isBlank_iff : IsBlank t ↔ trimLeft t = [] := by
  rw [IsBlank, ← List.dropWhile_eq_nil_iff, ← characters_trimLeft]
  constructor
  · intro h
    rw [← ofCharacters_characters (trimLeft t), h]
    rfl
  · intro h
    rw [h]
    rfl

theorem isEmpty_trimLeft_iff : (trimLeft t).isEmpty = true ↔ IsBlank t := by
  rw [List.isEmpty_iff, isBlank_iff]

instance : DecidablePred IsBlank := fun _ => decidable_of_iff _ isBlank_iff.symm

theorem isBlank_leadingSpace (t : Text) : IsBlank (leadingSpace t) := by
  intro c hc
  rw [characters_leadingSpace] at hc
  exact List.mem_takeWhile_imp hc

namespace IsBlank

theorem leadingSpace_eq (h : IsBlank t) : leadingSpace t = t := by
  rw [leadingSpace, List.takeWhile_eq_self_iff.mpr h, ofCharacters_characters]

/-- A byte that had to be replaced is no white space. -/
theorem code_ne (h : IsBlank t) : ∀ c ∈ characters t, c.code ≠ replacement := by
  intro c hc hcode
  have hspace := h c hc
  rw [Character.isSpace, hcode] at hspace
  exact absurd hspace (by decide)

theorem flatMap_codes (h : IsBlank t) : (codes t).flatMap ofCode = t := by
  rw [codes, flatMap_ofCode_eq (List.Subset.refl _) h.code_ne, ofCharacters_characters]

/-- The first code points of white space are white space themselves. -/
theorem codes_initial (h : IsBlank t) {ns : List Nat} (hns : ns <+: codes t) :
    IsBlank (ns.flatMap ofCode) ∧ codes (ns.flatMap ofCode) = ns := by
  obtain ⟨more, hmore⟩ := hns
  obtain ⟨cs, ds, hcut, rfl, -⟩ := List.map_eq_append_iff.mp hmore.symm
  have hsub : cs ⊆ characters t := hcut ▸ List.subset_append_left cs ds
  rw [flatMap_ofCode_eq hsub fun c hc => h.code_ne c (hsub hc), IsBlank, codes,
    (characters_parts hcut).1]
  exact ⟨fun c hc => h c (hsub hc), rfl⟩

theorem prefix_iff (h : IsBlank s) : s <+: t ↔ codes s <+: codes (leadingSpace t) := by
  constructor
  · rintro ⟨more, rfl⟩
    rw [codes, codes, characters_leadingSpace, characters_append h.code_ne,
      List.takeWhile_append_of_pos h, List.map_append]
    exact List.prefix_append _ _
  · rintro ⟨more, hmore⟩
    have hlead := (isBlank_leadingSpace t).flatMap_codes
    rw [← hmore, List.flatMap_append, h.flatMap_codes] at hlead
    exact List.IsPrefix.trans ⟨_, hlead⟩ ⟨trimLeft t, leadingSpace_append_trimLeft t⟩

end IsBlank

end CaseCover.Text
