import CaseCover.Proofs.Text.CodePoints
import CaseCover.Report.Layout

/-!
# Columns

A character of a line has a byte column, counted from 1, which says where its bytes start
(`placed`). A byte column at which a character starts, or one past the end, cuts the characters of
the line in two (`isColumn_iff`), and its display column is the width of the first part
(`displayColumn_eq_width`).
-/

namespace CaseCover.Layout

open Text (Character characters ofCharacters)

/-- Characters with the byte columns at which they start, the first one at `column`. -/
def placedFrom (column : Nat) : List Character → List (Nat × Character)
  | [] => []
  | c :: rest => (column, c) :: placedFrom (column + c.bytes.length) rest

/-- The characters of a line with the byte columns at which they start. -/
def placed (line : Text) : List (Nat × Character) := placedFrom 1 (characters line)

/-- A character starts at a byte column, or the line ends before it. -/
def IsColumn (line : Text) (column : Nat) : Prop :=
  column = line.length + 1 ∨ ∃ c, (column, c) ∈ placed line

/-- The width of some characters on a display, the first of them at its left end. -/
def width (cs : List Character) : Nat := cs.foldl advance 0

variable {line : Text} {column : Nat} {c : Character} {cs ds : List Character}

/-! ## Byte columns -/

theorem length_ofCharacters_append (cs ds : List Character) :
    (ofCharacters (cs ++ ds)).length = (ofCharacters cs).length + (ofCharacters ds).length := by
  rw [Text.ofCharacters_append, List.length_append]

theorem length_ofCharacters_cons (c : Character) (cs : List Character) :
    (ofCharacters (c :: cs)).length = c.bytes.length + (ofCharacters cs).length := by
  rw [ofCharacters, List.flatMap_cons, List.length_append]
  rfl

theorem placedFrom_append (column : Nat) (cs ds : List Character) :
    placedFrom column (cs ++ ds) =
      placedFrom column cs ++ placedFrom (column + (ofCharacters cs).length) ds := by
  induction cs generalizing column with
  | nil => rfl
  | cons c cs ih =>
    rw [List.cons_append, placedFrom, ih, placedFrom, List.cons_append, length_ofCharacters_cons,
      Nat.add_assoc]

/-- A character is placed where the bytes of the characters before it end. -/
theorem mem_placedFrom_iff {start : Nat} :
    (column, c) ∈ placedFrom start cs ↔
      ∃ before after, cs = before ++ c :: after ∧
        column = start + (ofCharacters before).length := by
  constructor
  · intro h
    induction cs generalizing start with
    | nil => cases h
    | cons d cs ih =>
      rw [placedFrom, List.mem_cons] at h
      rcases h with h | h
      · obtain ⟨rfl, rfl⟩ := Prod.mk.injEq _ _ _ _ ▸ h
        exact ⟨[], cs, rfl, rfl⟩
      · obtain ⟨before, after, rfl, rfl⟩ := ih h
        refine ⟨d :: before, after, rfl, ?_⟩
        rw [length_ofCharacters_cons, Nat.add_assoc]
  · rintro ⟨before, after, rfl, rfl⟩
    rw [placedFrom_append]
    exact List.mem_append_right _ List.mem_cons_self

/-- A character starts behind the bytes of those before it. -/
theorem mem_placed_iff :
    (column, c) ∈ placed line ↔
      ∃ before after, characters line = before ++ c :: after ∧
        column = (ofCharacters before).length + 1 := by
  rw [placed, mem_placedFrom_iff]
  simp only [Nat.add_comm 1]

/-- The columns of a line are those where it can be cut between characters. -/
theorem isColumn_iff :
    IsColumn line column ↔
      ∃ cs ds, characters line = cs ++ ds ∧ column = (ofCharacters cs).length + 1 := by
  constructor
  · rintro (rfl | ⟨c, hc⟩)
    · exact ⟨characters line, [], (List.append_nil _).symm, by rw [Text.ofCharacters_characters]⟩
    · obtain ⟨before, after, hcut, hcolumn⟩ := mem_placed_iff.mp hc
      exact ⟨before, c :: after, hcut, hcolumn⟩
  · rintro ⟨cs, ds, hcut, rfl⟩
    cases ds with
    | nil =>
      rw [List.append_nil] at hcut
      refine .inl ?_
      rw [← hcut, Text.ofCharacters_characters]
    | cons d ds =>
      exact .inr ⟨d, mem_placed_iff.mpr ⟨cs, ds, hcut, rfl⟩⟩

/-- Of two cuts of a line the one at the smaller column leaves a part of the other. -/
theorem prefix_of_length_le {line : Text} {cs ds cs' ds' : List Character}
    (h : characters line = cs ++ ds) (h' : characters line = cs' ++ ds')
    (hle : (ofCharacters cs).length ≤ (ofCharacters cs').length) : cs <+: cs' := by
  have hcs : cs <+: characters line := ⟨ds, h.symm⟩
  have hcs' : cs' <+: characters line := ⟨ds', h'.symm⟩
  rcases List.prefix_or_prefix_of_prefix hcs hcs' with hprefix | ⟨m, rfl⟩
  · exact hprefix
  · -- a character behind `cs'` would take bytes
    cases m with
    | nil => exact (List.append_nil cs').symm ▸ List.prefix_refl _
    | cons c m =>
      have hc : c ∈ characters line := h ▸ by simp
      have hpos := List.length_pos_iff.mpr (Text.bytes_ne_nil hc)
      rw [length_ofCharacters_append, length_ofCharacters_cons] at hle
      omega

theorem length_placedFrom (column : Nat) (cs : List Character) :
    (placedFrom column cs).length = cs.length := by
  induction cs generalizing column with
  | nil => rfl
  | cons c cs ih => rw [placedFrom, List.length_cons, ih, List.length_cons]

/-- Characters are placed where their bytes are. -/
theorem bounds_of_mem_placedFrom {start : Nat} {p : Nat × Character} (hcs : ∀ c ∈ cs, c.bytes ≠ [])
    (hp : p ∈ placedFrom start cs) : start ≤ p.1 ∧ p.1 < start + (ofCharacters cs).length := by
  obtain ⟨before, after, rfl, hcolumn⟩ := mem_placedFrom_iff.mp hp
  have hpos := List.length_pos_iff.mpr (hcs p.2 (by simp))
  rw [length_ofCharacters_append, length_ofCharacters_cons]
  omega

/-- Every character of a part of a line is placed between the ends of the part. -/
theorem exists_placed_of_mem {es : List Character} (h : characters line = cs ++ (ds ++ es))
    (hc : c ∈ ds) :
    ∃ column, (column, c) ∈ placed line ∧ (ofCharacters cs).length < column ∧
      column < (ofCharacters (cs ++ ds)).length + 1 := by
  obtain ⟨before, after, rfl⟩ := List.append_of_mem hc
  have hcut : characters line = (cs ++ before) ++ c :: (after ++ es) := by
    rw [h]
    simp
  have hmem : c ∈ characters line := hcut ▸ List.mem_append_right _ List.mem_cons_self
  have hpos := List.length_pos_iff.mpr (Text.bytes_ne_nil hmem)
  refine ⟨_, mem_placed_iff.mpr ⟨_, _, hcut, rfl⟩, ?_⟩
  simp only [length_ofCharacters_append, length_ofCharacters_cons]
  omega

/-- The characters between two cuts of a line are those with columns between them. -/
theorem countP_placed {es : List Character} (h : characters line = cs ++ (ds ++ es)) :
    (placed line).countP (fun p =>
      (ofCharacters cs).length + 1 ≤ p.1 && p.1 < (ofCharacters (cs ++ ds)).length + 1) =
      ds.length := by
  have hbytes : ∀ c ∈ cs ++ (ds ++ es), c.bytes ≠ [] := fun c hc =>
    Text.bytes_ne_nil (t := line) (h ▸ hc)
  obtain ⟨hcs, hrest⟩ := List.forall_mem_append.mp hbytes
  obtain ⟨hds, hes⟩ := List.forall_mem_append.mp hrest
  have hlength := length_ofCharacters_append cs ds
  rw [placed, h, placedFrom_append, placedFrom_append, List.countP_append, List.countP_append,
    List.countP_eq_zero.mpr, List.countP_eq_length.mpr, List.countP_eq_zero.mpr, length_placedFrom,
    Nat.zero_add, Nat.add_zero]
  · intro p hp
    have := bounds_of_mem_placedFrom hes hp
    grind
  · intro p hp
    have := bounds_of_mem_placedFrom hds hp
    grind
  · intro p hp
    have := bounds_of_mem_placedFrom hcs hp
    grind

/-! ## Display columns -/

/-- At the start of a character, the walk has advanced over those before it. -/
theorem columnFrom_append (index start : Nat) (hcs : ∀ c ∈ cs, c.bytes ≠ []) :
    columnFrom ((index + (ofCharacters cs).length : Nat) + 1) index start (cs ++ ds) =
      cs.foldl advance start := by
  induction cs generalizing index start with
  | nil =>
    cases ds with
    | nil => rfl
    | cons d ds => exact if_pos rfl
  | cons c cs ih =>
    obtain ⟨hc, hcs⟩ := List.forall_mem_cons.mp hcs
    have hpos := List.length_pos_iff.mpr hc
    rw [List.cons_append, columnFrom, length_ofCharacters_cons, if_neg (by omega), ← Nat.add_assoc,
      ih _ _ hcs, List.foldl_cons]

/-- The display column of a character is the width of what stands before it. -/
theorem displayColumn_eq_width (h : characters line = cs ++ ds) :
    displayColumn line (((ofCharacters cs).length + 1 : Nat) : Int) = width cs := by
  have hcs : ∀ c ∈ cs, c.bytes ≠ [] := fun c hc =>
    Text.bytes_ne_nil (t := line) (h ▸ List.mem_append_left ds hc)
  have hat : 0 + (ofCharacters cs).length = (ofCharacters cs).length := Nat.zero_add _
  rw [displayColumn, if_neg (by omega), h, width, ← columnFrom_append 0 0 hcs, hat]
  rfl

/-- Without tabs each character takes one cell. -/
theorem foldl_advance_eq {start : Nat} (h : ∀ c ∈ cs, c.code ≠ 9) :
    cs.foldl advance start = start + cs.length := by
  induction cs generalizing start with
  | nil => rfl
  | cons c cs ih =>
    obtain ⟨hc, hcs⟩ := List.forall_mem_cons.mp h
    rw [List.foldl_cons, advance, if_neg (by simpa using hc), ih hcs, List.length_cons]
    omega

/-- Without tabs, every character adds one column. -/
theorem width_append (h : ∀ c ∈ ds, c.code ≠ 9) : width (cs ++ ds) = width cs + ds.length := by
  rw [width, List.foldl_append, foldl_advance_eq h]
  rfl

/-- A text of ASCII bytes without tabs. -/
def IsNarrow (s : Text) : Prop := ∀ b ∈ s, b < 0x80 ∧ b ≠ 9

theorem IsNarrow.append {s t : Text} (hs : IsNarrow s) (ht : IsNarrow t) : IsNarrow (s ++ t) :=
  List.forall_mem_append.mpr ⟨hs, ht⟩

theorem isNarrow_repeated {b : UInt8} (hb : b < 0x80 ∧ b ≠ 9) (n : Nat) :
    IsNarrow (Text.repeated n b) :=
  fun _ h => List.eq_of_mem_replicate h ▸ hb

theorem isNarrow_of_all {s : Text} (h : (s.all fun b => b < 0x80 && b ≠ 9) = true) :
    IsNarrow s := by
  simpa [IsNarrow] using h

/-- In front of characters without a tab, the bytes of a narrow text take one cell each. -/
theorem width_narrow_append {s t : Text} (hs : IsNarrow s) (ht : ∀ c ∈ characters t, c.code ≠ 9) :
    width (characters (s ++ t)) = s.length + (characters t).length := by
  have hnoTab : ∀ c ∈ s.map (fun b => (⟨b.toNat, [b]⟩ : Character)), c.code ≠ 9 := by
    rw [List.forall_mem_map]
    exact fun b hb => fun hcode => (hs b hb).2 (UInt8.toNat_inj.mp hcode)
  rw [Text.characters_ascii_append fun b hb => (hs b hb).1, width,
    foldl_advance_eq (List.forall_mem_append.mpr ⟨hnoTab, ht⟩), List.length_append, List.length_map,
    Nat.zero_add]

/-- A narrow text is as wide as it is long. -/
theorem width_narrow {s : Text} (hs : IsNarrow s) : width (characters s) = s.length := by
  have h := width_narrow_append (t := []) hs fun c hc => by cases hc
  rw [List.append_nil] at h
  exact h

end CaseCover.Layout
