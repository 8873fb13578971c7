import CaseCover.Proofs.Text.Blank
import CaseCover.Report.Layout

/-!
# The indent that lines share

The indents of lines are compared code point by code point. What starts the common start of two
lists starts both of them (`prefix_commonStart_iff`), so what starts the indent that lines share
starts the indent of each (`prefix_codes_sharedIndent_iff`). As white space is the same as its code
points, the shared indent is the greatest one: every white space that starts the lines starts it
(`sharedIndent_isGreatest`).
-/

namespace CaseCover.Layout

open Text (IsBlank codes leadingSpace)

/-! ## Common starts -/

/-- The common start of two lists is the longest list that starts both. -/
theorem prefix_commonStart_iff {α : Type} [BEq α] [LawfulBEq α] {l a b : List α} :
    l <+: commonStart a b ↔ l <+: a ∧ l <+: b := by
  have hnil (l b : List α) : l <+: [] ↔ l <+: [] ∧ l <+: b :=
    (and_iff_left_of_imp fun h => List.prefix_nil.mp h ▸ List.nil_prefix).symm
  induction a generalizing l b with
  | nil => exact hnil l b
  | cons x a ih =>
    cases b with
    | nil => exact (hnil l (x :: a)).trans and_comm
    | cons y b =>
      cases l with
      | nil => exact iff_of_true List.nil_prefix ⟨List.nil_prefix, List.nil_prefix⟩
      | cons z l =>
        rw [commonStart, List.cons_prefix_cons, List.cons_prefix_cons]
        split
        · next hxy =>
          obtain rfl := beq_iff_eq.mp hxy
          rw [List.cons_prefix_cons]
          exact (and_congr_right' ih).trans and_and_left
        · next hxy =>
          rw [List.prefix_nil]
          refine iff_of_false (List.cons_ne_nil z l) ?_
          rintro ⟨⟨rfl, -⟩, rfl, -⟩
          exact hxy (beq_self_eq_true z)

theorem prefix_commonFrom_iff {ns indent : List Nat} {rest : List (List Nat)} :
    ns <+: commonFrom indent rest ↔ ns <+: indent ∧ ∀ next ∈ rest, ns <+: next := by
  induction rest generalizing indent with
  | nil => simp [commonFrom]
  | cons next rest ih =>
    rw [List.forall_mem_cons, ← and_assoc, ← prefix_commonStart_iff, commonFrom]
    split
    · -- where nothing is common any more, nothing starts the lists that are left out either
      next hempty =>
      rw [List.isEmpty_iff.mp hempty]
      refine (and_iff_left_of_imp fun h => ?_).symm
      rw [List.prefix_nil.mp h]
      exact fun _ _ => List.nil_prefix
    · exact ih

/-! ## The indents of lines -/

/-- A line has an indent exactly if it is not blank. -/
theorem indentOf?_eq (line : Text) :
    indentOf? line = if IsBlank line then none else some (codes (leadingSpace line)) := by
  have hblank : ((Text.characters line).takeWhile Text.Character.isSpace).length =
      (Text.characters line).length ↔ IsBlank line := by
    rw [IsBlank, ← List.takeWhile_eq_self_iff]
    exact ⟨(List.takeWhile_prefix _).eq_of_length, congrArg List.length⟩
  unfold indentOf?
  simp only [beq_iff_eq, hblank, codes, Text.characters_leadingSpace]

variable {lines lines' : List Text} {indent indent' : Text} {ns : List Nat}

theorem mem_indents_iff : ns ∈ lines.filterMap indentOf? ↔
    ∃ line ∈ lines, ¬ IsBlank line ∧ codes (leadingSpace line) = ns := by
  simp only [List.mem_filterMap, indentOf?_eq, Option.ite_none_left_eq_some, Option.some.injEq]

theorem sharedIndent_of_isBlank (h : ∀ line ∈ lines, IsBlank line) : sharedIndent lines = [] := by
  have hnone : lines.filterMap indentOf? = [] :=
    List.filterMap_eq_nil_iff.mpr fun line hline => by rw [indentOf?_eq, if_pos (h line hline)]
  rw [sharedIndent, hnone]

/-- A line on its own is shown from its first character on that is no white space. -/
theorem sharedIndent_singleton {line : Text} (h : ¬ IsBlank line) :
    sharedIndent [line] = leadingSpace line := by
  have hindent : [line].filterMap indentOf? = [codes (leadingSpace line)] :=
    List.filterMap_cons_some (by rw [indentOf?_eq, if_neg h])
  rw [sharedIndent, hindent]
  exact (Text.isBlank_leadingSpace line).flatMap_codes

/-- What starts the shared indent starts the indent of every line that is not blank. -/
theorem prefix_codes_sharedIndent_iff (h : ∃ line ∈ lines, ¬ IsBlank line) :
    IsBlank (sharedIndent lines) ∧
      ∀ ns, ns <+: codes (sharedIndent lines) ↔
        ∀ line ∈ lines, ¬ IsBlank line → ns <+: codes (leadingSpace line) := by
  obtain ⟨line, hline, hnot⟩ := h
  cases hindents : lines.filterMap indentOf? with
  | nil =>
    have hmem := mem_indents_iff.mpr ⟨line, hline, hnot, rfl⟩
    rw [hindents] at hmem
    cases hmem
  | cons first rest =>
    have hstart (ns : List Nat) : ns <+: commonFrom first rest ↔
        ∀ line ∈ lines, ¬ IsBlank line → ns <+: codes (leadingSpace line) := by
      rw [prefix_commonFrom_iff, ← List.forall_mem_cons, ← hindents]
      simp only [mem_indents_iff]
      grind
    have hfirst : first ∈ lines.filterMap indentOf? := hindents ▸ List.mem_cons_self
    obtain ⟨other, -, -, rfl⟩ := mem_indents_iff.mp hfirst
    have hprefix : commonFrom (codes (leadingSpace other)) rest <+: codes (leadingSpace other) :=
      (prefix_commonFrom_iff.mp (List.prefix_refl _)).1
    obtain ⟨hblank, hcodes⟩ := (Text.isBlank_leadingSpace other).codes_initial hprefix
    rw [sharedIndent, hindents]
    exact ⟨hblank, fun ns => hcodes.symm ▸ hstart ns⟩

/-! ## The greatest shared indent -/

/-- The greatest white space that starts every line, blank lines left aside; nothing if all lines
are blank. -/
structure IsSharedIndent (lines : List Text) (indent : Text) : Prop where
  isBlank : IsBlank indent
  isPrefix : ∀ line ∈ lines, ¬ IsBlank line → indent <+: line
  isGreatest : (∃ line ∈ lines, ¬ IsBlank line) → ∀ space, IsBlank space →
    (∀ line ∈ lines, ¬ IsBlank line → space <+: line) → space <+: indent
  isEmpty : (∀ line ∈ lines, IsBlank line) → indent = []

/-- The greatest shared indent is told by the lines that are not blank. -/
theorem IsSharedIndent.unique (h : IsSharedIndent lines indent) (h' : IsSharedIndent lines' indent')
    (hlines : ∀ line, ¬ IsBlank line → (line ∈ lines ↔ line ∈ lines')) : indent = indent' := by
  by_cases hsome : ∃ line ∈ lines, ¬ IsBlank line
  · have hsome' : ∃ line ∈ lines', ¬ IsBlank line := by
      obtain ⟨line, hline, hnot⟩ := hsome
      exact ⟨line, (hlines line hnot).mp hline, hnot⟩
    have hle : indent <+: indent' := h'.isGreatest hsome' indent h.isBlank fun line hline hnot =>
      h.isPrefix line ((hlines line hnot).mpr hline) hnot
    have hge : indent' <+: indent := h.isGreatest hsome indent' h'.isBlank fun line hline hnot =>
      h'.isPrefix line ((hlines line hnot).mp hline) hnot
    exact hle.eq_of_length_le hge.length_le
  · push Not at hsome
    rw [h.isEmpty hsome, h'.isEmpty fun line hline => ?_]
    by_contra hnot
    exact hnot (hsome line ((hlines line hnot).mpr hline))

theorem isSharedIndent_sharedIndent (lines : List Text) :
    IsSharedIndent lines (sharedIndent lines) := by
  by_cases hsome : ∃ line ∈ lines, ¬ IsBlank line
  · obtain ⟨hblank, hstart⟩ := prefix_codes_sharedIndent_iff hsome
    refine ⟨hblank, fun line hline hnot => ?_, fun _ space hspace hstarts => ?_, fun hall => ?_⟩
    · exact hblank.prefix_iff.mpr ((hstart _).mp (List.prefix_refl _) line hline hnot)
    · rw [hspace.prefix_iff, hblank.leadingSpace_eq, hstart]
      exact fun line hline hnot => hspace.prefix_iff.mp (hstarts line hline hnot)
    · obtain ⟨line, hline, hnot⟩ := hsome
      exact absurd (hall line hline) hnot
  · have hall := not_exists.mp hsome
    push Not at hsome
    rw [sharedIndent_of_isBlank hsome]
    exact ⟨nofun, fun line hline hnot => absurd (hsome line hline) hnot,
      fun ⟨line, hline⟩ => absurd hline (hall line), fun _ => rfl⟩

/-- The shared indent is the greatest one, and the same for any lines that are the same but for
their order, repeated lines and blank ones. -/
theorem sharedIndent_isGreatest (lines : List Text) :
    IsSharedIndent lines (sharedIndent lines) ∧
      ∀ lines', (∀ line, ¬ IsBlank line → (line ∈ lines ↔ line ∈ lines')) →
        sharedIndent lines' = sharedIndent lines := by
  have h := isSharedIndent_sharedIndent lines
  exact ⟨h, fun lines' hlines => (h.unique (isSharedIndent_sharedIndent lines') hlines).symm⟩

-- the two spaces behind the tab start with the same bytes, but they are not the same character
example : sharedIndent ["\t\u2002x", "", "\t\u2003y"] = "\t" := by
  decide

end CaseCover.Layout
