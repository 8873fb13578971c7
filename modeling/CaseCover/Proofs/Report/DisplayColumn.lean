import CaseCover.Proofs.Report.Columns

/-!
# Display columns as widths

The display column of a byte column should be the width of the characters that start before it. The
layout only recognises the byte columns at which a character starts, and negative ones. At any other
byte column it takes the whole line for what stands before the column, so that the answer is right
there only if no character starts at or behind it (`displayColumn_followsWidths`). This concerns the
column zero, which stands for a column that is not known, and those inside a character of several
bytes.
-/

namespace CaseCover.Layout

open Text (Character characters ofCharacters)

/-- The characters of a line that start before a byte column. -/
def startingBefore (line : Text) (column : Int) : List Character :=
  ((placed line).filter fun p => (p.1 : Int) < column).map (·.2)

/-- Characters take so many cells: a tab ends at the next stop, eight cells from one to the next, and
any other character takes one cell. -/
inductive HasWidth : List Character → Nat → Prop
  | nil : HasWidth [] 0
  | tab {cs : List Character} {c : Character} {w stop : Nat} (before : HasWidth cs w)
      (isTab : c.code = 9) (later : w < stop) (isStop : 8 ∣ stop) (next : stop ≤ w + 8) :
      HasWidth (cs ++ [c]) stop
  | other {cs : List Character} {c : Character} {w : Nat} (before : HasWidth cs w)
      (noTab : c.code ≠ 9) : HasWidth (cs ++ [c]) (w + 1)

/-- A byte column is negative, a character starts at it, or all characters start before it. -/
def IsRecognised (line : Text) (column : Int) : Prop :=
  column < 0 ∨ (∃ p ∈ placed line, (p.1 : Int) = column) ∨ ∀ p ∈ placed line, (p.1 : Int) < column

/-- What the display columns of a line have to do with the widths of its parts. -/
structure FollowsWidths (line : Text) : Prop where
  /-- A display column is the width of what starts before it exactly at the recognised columns. -/
  isWidth_iff : ∀ column,
    HasWidth (startingBefore line column) (displayColumn line column) ↔ IsRecognised line column
  /-- At all other columns it is the width of the line. -/
  otherwise : ∀ column, ¬ IsRecognised line column →
    HasWidth (characters line) (displayColumn line column)
  /-- Nothing stands before the first column. -/
  first : ∀ column ≤ 1, column ≠ 0 → displayColumn line column = 0
  /-- At column zero the width is zero only for a line that is empty. -/
  zero : displayColumn line 0 = 0 ↔ line = []
  /-- The whole line stands before every column behind its end. -/
  behind : ∀ column : Int, line.length < column →
    HasWidth (characters line) (displayColumn line column)
  /-- Among the recognised columns a later one is not further left. -/
  mono : ∀ column column', IsRecognised line column → IsRecognised line column' →
    column ≤ column' → displayColumn line column ≤ displayColumn line column'

variable {line : Text} {column : Int} {c : Character} {cs ds : List Character}

/-! ## Widths -/

theorem lt_advance (w : Nat) (c : Character) : w < advance w c := by
  unfold advance tabStop
  split <;> omega

/-- A tab goes to the next multiple of 8. -/
theorem advance_tab {w stop : Nat} (h : c.code = 9) :
    advance w c = stop ↔ w < stop ∧ 8 ∣ stop ∧ stop ≤ w + 8 := by
  simp only [advance, h, beq_self_eq_true, ↓reduceIte, tabStop]
  omega

theorem advance_other {w : Nat} (h : c.code ≠ 9) : advance w c = w + 1 := by
  simp [advance, h]

theorem width_concat (cs : List Character) (c : Character) :
    width (cs ++ [c]) = advance (width cs) c := by
  simp [width, List.foldl_append]

/-- Characters have the width that is counted from the left. -/
theorem hasWidth_iff {w : Nat} : HasWidth cs w ↔ w = width cs := by
  constructor
  · intro h
    induction h with
    | nil => rfl
    | tab before isTab later isStop next ih =>
      rw [width_concat, ← ih]
      exact ((advance_tab isTab).mpr ⟨later, isStop, next⟩).symm
    | other before noTab ih => rw [width_concat, ← ih, advance_other noTab]
  · rintro rfl
    induction cs using List.reverseRecOn with
    | nil => exact .nil
    | append_singleton cs c ih =>
      rw [width_concat]
      by_cases htab : c.code = 9
      · obtain ⟨hlater, hstop, hnext⟩ := (advance_tab (w := width cs) htab).mp rfl
        exact .tab ih htab hlater hstop hnext
      · rw [advance_other htab]
        exact .other ih htab

/-- Every character makes a part of a line wider. -/
theorem width_le_append (cs ds : List Character) :
    width cs ≤ width (cs ++ ds) ∧ (width (cs ++ ds) = width cs → ds = []) := by
  induction ds using List.reverseRecOn with
  | nil => simp
  | append_singleton ds d ih =>
    have hlt := lt_advance (width (cs ++ ds)) d
    rw [← List.append_assoc, width_concat]
    constructor
    · omega
    · intro heq
      omega

/-! ## What starts before a column -/

theorem le_of_mem_placedFrom {start : Nat} {p : Nat × Character} (h : p ∈ placedFrom start cs) :
    start ≤ p.1 := by
  obtain ⟨before, after, -, hcolumn⟩ := mem_placedFrom_iff.mp h
  omega

theorem filter_placedFrom_eq_nil {start : Nat} (h : column ≤ start) (cs : List Character) :
    (placedFrom start cs).filter (fun p => (p.1 : Int) < column) = [] := by
  refine List.filter_eq_nil_iff.mpr fun p hp => ?_
  have hle := le_of_mem_placedFrom hp
  simp only [decide_eq_true_eq]
  omega

/-- The columns grow, so what starts before one of them comes first. -/
theorem filter_placedFrom_prefix_self (column : Int) (start : Nat) (cs : List Character) :
    ((placedFrom start cs).filter fun p => (p.1 : Int) < column).map (·.2) <+: cs := by
  induction cs generalizing start with
  | nil => exact List.nil_prefix
  | cons c cs ih =>
    by_cases hstart : (start : Int) < column
    · rw [placedFrom, List.filter_cons_of_pos (by simpa using hstart), List.map_cons]
      exact List.prefix_cons_inj c |>.mpr (ih _)
    · rw [filter_placedFrom_eq_nil (by omega)]
      exact List.nil_prefix

/-- What starts before a column is the front of the line. -/
theorem startingBefore_prefix_line (line : Text) (column : Int) :
    startingBefore line column <+: characters line :=
  filter_placedFrom_prefix_self column 1 (characters line)

/-- A later column has as much or more before it. -/
theorem startingBefore_prefix_of_le {column' : Int} (h : column ≤ column') :
    startingBefore line column <+: startingBefore line column' := by
  have hsub : ((placed line).filter fun p => decide ((p.1 : Int) < column)).Sublist
      ((placed line).filter fun p => decide ((p.1 : Int) < column')) := by
    apply List.monotone_filter_right
    intro p hp
    simp only [decide_eq_true_eq] at hp ⊢
    omega
  refine List.prefix_of_prefix_length_le (startingBefore_prefix_line line column)
    (startingBefore_prefix_line line column') ?_
  simpa [startingBefore] using hsub.length_le

/-- Before the column at which a part of a line starts stands what is in front of the part. -/
theorem startingBefore_of_cut (h : characters line = cs ++ ds) :
    startingBefore line ((ofCharacters cs).length + 1 : Nat) = cs := by
  have hcs : ∀ c ∈ cs, c.bytes ≠ [] := fun c hc =>
    Text.bytes_ne_nil (t := line) (h ▸ List.mem_append_left ds hc)
  have hin : (placedFrom 1 cs).filter (fun p => (p.1 : Int) < ((ofCharacters cs).length + 1 : Nat)) =
      placedFrom 1 cs := by
    refine List.filter_eq_self.mpr fun p hp => ?_
    have hlt := (bounds_of_mem_placedFrom hcs hp).2
    simp only [decide_eq_true_eq]
    omega
  have hout : (placedFrom (1 + (ofCharacters cs).length) ds).filter
      (fun p => (p.1 : Int) < ((ofCharacters cs).length + 1 : Nat)) = [] :=
    filter_placedFrom_eq_nil (by omega) ds
  have hback (start : Nat) (cs : List Character) : (placedFrom start cs).map (·.2) = cs := by
    induction cs generalizing start with
    | nil => rfl
    | cons c cs ih => rw [placedFrom, List.map_cons, ih]
  rw [startingBefore, placed, h, placedFrom_append, List.filter_append, hin, hout, List.append_nil,
    hback]

/-- Nothing starts before the first column. -/
theorem startingBefore_of_le_one (h : column ≤ 1) : startingBefore line column = [] := by
  rw [startingBefore, placed, filter_placedFrom_eq_nil (by omega), List.map_nil]

/-- The whole line starts before a column exactly if all its characters do. -/
theorem startingBefore_eq_iff :
    startingBefore line column = characters line ↔ ∀ p ∈ placed line, (p.1 : Int) < column := by
  have hlength : (placed line).length = (characters line).length := length_placedFrom 1 _
  have hwhole : startingBefore line column = characters line ↔
      ((placed line).filter fun p => (p.1 : Int) < column).length = (placed line).length := by
    rw [hlength]
    constructor
    · intro h
      rw [← h]
      simp [startingBefore]
    · intro h
      refine (startingBefore_prefix_line line column).eq_of_length ?_
      simpa [startingBefore] using h
  rw [hwhole, List.length_filter_eq_length_iff]
  simp

/-! ## Display columns -/

/-- A column at which no character starts is not met on the way through the line. -/
theorem columnFrom_of_not_start {index w : Nat}
    (h : ∀ p ∈ placedFrom (index + 1) cs, (p.1 : Int) ≠ column) :
    columnFrom column index w cs = cs.foldl advance w := by
  induction cs generalizing index w with
  | nil => rfl
  | cons c cs ih =>
    have hne : ¬ (index : Int) + 1 = column := by
      have hfirst := h (index + 1, c) (by simp [placedFrom])
      simpa using hfirst
    rw [columnFrom, if_neg hne, List.foldl_cons]
    refine ih fun p hp => h p ?_
    rw [placedFrom, Nat.add_right_comm]
    exact List.mem_cons_of_mem _ hp

/-- A column at which no character starts is put at the end of the line. -/
theorem displayColumn_of_not_start (hpos : 0 ≤ column)
    (h : ∀ p ∈ placed line, (p.1 : Int) ≠ column) :
    displayColumn line column = width (characters line) := by
  rw [displayColumn, if_neg (by omega)]
  exact columnFrom_of_not_start h

theorem displayColumn_of_neg (h : column < 0) : displayColumn line column = 0 := if_pos h

/-- At the start of a character stands the width of what starts before it. -/
theorem displayColumn_of_start {p : Nat × Character} (hp : p ∈ placed line) :
    displayColumn line p.1 = width (startingBefore line p.1) := by
  obtain ⟨before, after, hcut, hcolumn⟩ := mem_placed_iff.mp hp
  rw [hcolumn, startingBefore_of_cut hcut, displayColumn_eq_width hcut]

/-- A display column is the width of what starts before it exactly at the recognised columns. -/
theorem displayColumn_eq_width_iff :
    displayColumn line column = width (startingBefore line column) ↔ IsRecognised line column := by
  by_cases hneg : column < 0
  · have hnone : startingBefore line column = [] := startingBefore_of_le_one (by omega)
    rw [displayColumn_of_neg hneg, hnone]
    exact iff_of_true rfl (.inl hneg)
  by_cases hstart : ∃ p ∈ placed line, (p.1 : Int) = column
  · obtain ⟨p, hp, rfl⟩ := hstart
    exact iff_of_true (displayColumn_of_start hp) (.inr (.inl ⟨p, hp, rfl⟩))
  · -- the whole line is taken, and it is wider than any proper part of it
    have hline := displayColumn_of_not_start (by omega) fun p hp heq => hstart ⟨p, hp, heq⟩
    have hwhole : width (characters line) = width (startingBefore line column) ↔
        startingBefore line column = characters line := by
      constructor
      · intro heq
        obtain ⟨rest, hrest⟩ := startingBefore_prefix_line line column
        rw [← hrest] at heq
        have hnil := (width_le_append _ rest).2 heq
        rw [← hrest, hnil, List.append_nil]
      · intro heq
        rw [heq]
    rw [hline, hwhole, startingBefore_eq_iff, IsRecognised, or_iff_right hneg,
      or_iff_right hstart]

/-- A column that is not recognised is put at the end of the line. -/
theorem displayColumn_of_not_recognised (h : ¬ IsRecognised line column) :
    displayColumn line column = width (characters line) := by
  have hneg : ¬ column < 0 := fun hlt => h (.inl hlt)
  exact displayColumn_of_not_start (Int.not_lt.mp hneg) fun p hp heq => h (.inr (.inl ⟨p, hp, heq⟩))

/-- No character starts behind the end of a line. -/
theorem lt_of_mem_placed {p : Nat × Character} (hp : p ∈ placed line)
    (h : (line.length : Int) < column) : (p.1 : Int) < column := by
  have hlt := (bounds_of_mem_placedFrom (fun c hc => Text.bytes_ne_nil hc) hp).2
  rw [Text.ofCharacters_characters] at hlt
  omega

/-- Column 0 is put at the end of the line, which is the start only if the line is empty. -/
theorem displayColumn_zero_iff : displayColumn line 0 = 0 ↔ line = [] := by
  have hpos : ∀ p ∈ placed line, (p.1 : Int) ≠ 0 := by
    intro p hp heq
    have hle := le_of_mem_placedFrom hp
    omega
  rw [displayColumn_of_not_start (Int.le_refl 0) hpos]
  constructor
  · intro h
    have hnil := (width_le_append [] (characters line)).2 h
    rw [← Text.ofCharacters_characters line, hnil]
    rfl
  · rintro rfl
    rfl

/-- The first column has a character at it or an empty line behind it. -/
theorem isRecognised_of_le_one (hle : column ≤ 1) (hne : column ≠ 0) :
    IsRecognised line column := by
  by_cases hneg : column < 0
  · exact .inl hneg
  obtain rfl : column = 1 := by omega
  cases hcs : characters line with
  | nil =>
    refine .inr (.inr fun p hp => ?_)
    rw [placed, hcs] at hp
    cases hp
  | cons c cs =>
    refine .inr (.inl ⟨(1, c), ?_, rfl⟩)
    rw [placed, hcs]
    exact List.mem_cons_self

/-- Display columns are widths of what stands before them, except at columns that are zero or inside
a character, from which they take the whole line for it. -/
theorem displayColumn_followsWidths (line : Text) : FollowsWidths line where
  isWidth_iff column := by rw [hasWidth_iff, displayColumn_eq_width_iff]
  otherwise column h := hasWidth_iff.mpr (displayColumn_of_not_recognised h)
  first column hle hne := by
    rw [displayColumn_eq_width_iff.mpr (isRecognised_of_le_one hle hne),
      startingBefore_of_le_one hle]
    rfl
  zero := displayColumn_zero_iff
  behind column h := by
    have hall : ∀ p ∈ placed line, (p.1 : Int) < column := fun p hp => lt_of_mem_placed hp h
    rw [hasWidth_iff, displayColumn_eq_width_iff.mpr (.inr (.inr hall)),
      startingBefore_eq_iff.mpr hall]
  mono column column' h h' hle := by
    obtain ⟨rest, hrest⟩ := startingBefore_prefix_of_le hle
    rw [displayColumn_eq_width_iff.mpr h, displayColumn_eq_width_iff.mpr h', ← hrest]
    exact (width_le_append _ rest).1

/-- At a column that is not known, and inside a character of two bytes, more than what stands before
it is counted. -/
theorem not_hasWidth_displayColumn :
    ¬ HasWidth (startingBefore (utf8 "abcd") 0) (displayColumn (utf8 "abcd") 0) ∧
      ¬ HasWidth (startingBefore (utf8 "\u00e9b") 2) (displayColumn (utf8 "\u00e9b") 2) := by
  rw [hasWidth_iff, hasWidth_iff]
  decide

end CaseCover.Layout
