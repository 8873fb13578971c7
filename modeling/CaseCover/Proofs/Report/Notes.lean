import CaseCover.Engine
import CaseCover.Proofs.Text.CodePoints
import CaseCover.Proofs.Text.Pieces
import CaseCover.Report

/-!
# Notes

The texts of related places are joined to one note, and a report prints a line for each part of the
note. A separator that stands between two places is found there, so every place gets at least one
line; it gets no more exactly if its text does not hold the separator (`printsTexts_iff`). Names of
files are not escaped, so one that holds the separator is cut (`printsEntries_iff`).
-/

namespace CaseCover.Report

variable {i : Issue} {colours : Bool} {lines : List Text} {texts : List Text}

/-- The line of a report for one part of a note. -/
def noteLine (colours : Bool) (width : Nat) (part : Text) : Text :=
  Mark.line.paint colours (blanks (width + 1) ++ utf8 "= ") ++ Mark.note.paint colours "note: " ++
    part

/-- The lines of a report for some parts of a note, below each other. -/
def noteBlock (colours : Bool) (i : Issue) (parts : List Text) : Text :=
  Text.join "\n" (parts.map (noteLine colours (Layout.numberWidth (max i.stop.line i.start.line))))

/-- The report of an issue shows, below all that it shows without a note, one line for each of some
texts, in their order, and nothing else. -/
def PrintsTexts (colours : Bool) (lines : List Text) (i : Issue) (texts : List Text) : Prop :=
  ∃ body, issue colours lines { i with note := [] } = body ++ utf8 "\n\n" ∧
    issue colours lines i = body ++ utf8 "\n" ++ noteBlock colours i texts ++ utf8 "\n\n"

/-- A report shows a line for each part of the note. -/
theorem printsTexts_splitOn (colours : Bool) (lines : List Text) (h : i.note ≠ []) :
    PrintsTexts colours lines i (Text.splitOn noteSeparator i.note) := by
  have hempty : i.note.isEmpty = false := by simpa using h
  refine ⟨_, rfl, ?_⟩
  rw [issue, hempty]
  simp only [List.isEmpty_nil, Bool.false_eq_true, ↓reduceIte, List.append_nil, List.append_assoc]
  rfl

/-! ## How many lines there are -/

theorem length_le_length_paint (m : Mark) (colours : Bool) (t : Text) :
    t.length ≤ (m.paint colours t).length := by
  cases colours with
  | false => exact Nat.le_refl _
  | true =>
    rw [Mark.paint, if_pos rfl]
    simp only [List.length_append]
    omega

theorem length_noteLine (colours : Bool) (width : Nat) (part : Text) :
    (noteLine colours width part).length = (noteLine colours width []).length + part.length := by
  simp [noteLine, Nat.add_assoc]

theorem one_lt_length_noteLine (colours : Bool) (width : Nat) :
    1 < (noteLine colours width []).length := by
  have hlabel := length_le_length_paint .note colours "note: "
  have hsix : (utf8 "note: ").length = 6 := by decide
  rw [noteLine]
  simp only [List.length_append]
  omega

theorem length_noteBlock (colours : Bool) (i : Issue) {parts : List Text} (hparts : parts ≠ []) :
    (noteBlock colours i parts).length + 1 = parts.flatten.length + parts.length *
      ((noteLine colours (Layout.numberWidth (max i.stop.line i.start.line)) []).length + 1) := by
  have hsum (width : Nat) (ps : List Text) :
      (ps.map (noteLine colours width)).flatten.length =
        ps.flatten.length + ps.length * (noteLine colours width []).length := by
    induction ps with
    | nil => simp
    | cons p ps ih =>
      rw [List.map_cons, List.flatten_cons, List.length_append, ih, length_noteLine,
        List.flatten_cons, List.length_append, List.length_cons, Nat.add_mul]
      omega
  have hbreak : (utf8 "\n").length = 1 := rfl
  have hlines :
      parts.map (noteLine colours (Layout.numberWidth (max i.stop.line i.start.line))) ≠ [] := by
    simpa using hparts
  have hjoin := Text.length_join (utf8 "\n") hlines
  rw [hbreak, hsum, List.length_map] at hjoin
  rw [noteBlock, hjoin, Nat.mul_add]
  omega

/-- Texts that are joined to the same note and shown in the same lines are as many. -/
theorem length_eq_of_noteBlock_eq {parts parts' : List Text} (hparts : parts ≠ [])
    (hparts' : parts' ≠ [])
    (hnote : Text.join noteSeparator parts = Text.join noteSeparator parts')
    (hblock : noteBlock colours i parts = noteBlock colours i parts') :
    parts.length = parts'.length := by
  have htwo : noteSeparator.length = 2 := by decide
  have hjoin := Text.length_join noteSeparator hparts
  rw [hnote, Text.length_join noteSeparator hparts', htwo] at hjoin
  have hlines := length_noteBlock colours i hparts
  rw [hblock, length_noteBlock colours i hparts'] at hlines
  -- a line is longer than the separator that it takes the place of
  obtain ⟨more, hmore⟩ := Nat.exists_eq_add_of_lt
    (one_lt_length_noteLine colours (Layout.numberWidth (max i.stop.line i.start.line)))
  have hcut (n : Nat) : n * (1 + more + 1 + 1) = n * 2 + n * (more + 1) := by
    rw [← Nat.mul_add]
    congr 1
    omega
  rw [hmore, hcut, hcut] at hlines
  exact Nat.eq_of_mul_eq_mul_right (Nat.add_one_pos more) (by omega)

/-! ## One line for each place -/

/-- Texts that are joined to a note get one line each exactly if none of them holds what separates
the parts of a note. -/
theorem printsTexts_iff (colours : Bool) (lines : List Text) (hnote : i.note ≠ [])
    (htexts : texts ≠ []) (hjoin : i.note = Text.join noteSeparator texts) :
    PrintsTexts colours lines i texts ↔ ∀ t ∈ texts, ¬ noteSeparator <:+: t := by
  have hsep : (0x3B : UInt8) ∉ utf8 " " := by decide
  have hpieces := printsTexts_splitOn colours lines hnote
  constructor
  · intro hshown
    obtain ⟨body, hbody, hprinted⟩ := hpieces
    obtain ⟨body', hbody', hprinted'⟩ := hshown
    obtain rfl : body = body' := List.append_cancel_right (hbody.symm.trans hbody')
    have hblock := List.append_cancel_left
      (List.append_cancel_right (hprinted.symm.trans hprinted'))
    refine (Text.length_splitOn_join_eq_iff hsep htexts).mp ?_
    have hlength := length_eq_of_noteBlock_eq (Text.splitOn_ne_nil noteSeparator i.note) htexts
      ((Text.join_splitOn 0x3B (utf8 " ") i.note).trans hjoin) hblock
    rw [hjoin] at hlength
    exact hlength
  · intro hfree
    have hself : Text.splitOn noteSeparator i.note = texts :=
      hjoin ▸ Text.splitOn_join_eq_self hsep htexts hfree
    rw [hself] at hpieces
    exact hpieces

/-- A constant that is not matched, and where it is declared. -/
structure IsEntry (place : Pos → Place) (l : Literal) : Prop where
  named : l.name ≠ []
  noSemicolon : 0x3B ∉ l.name
  declared : l.pos ≠ 0
  known : (place l.pos).isKnown = true

/-- What a note says about a constant. -/
def entryText (place : Pos → Place) (l : Literal) : Text :=
  l.name ++ utf8 " not matched (" ++ (place l.pos).filename ++ utf8 ":" ++
    Text.ofInt (place l.pos).line ++ utf8 ")"

/-- What a note says about a constant holds the separator only in the name of the file. -/
theorem infix_entryText_iff {place : Pos → Place} {l : Literal} (h : IsEntry place l) :
    noteSeparator <:+: entryText place l ↔ noteSeparator <:+: (place l.pos).filename := by
  have hlead : (0x3B : UInt8) ∉ l.name ++ utf8 " not matched (" := by
    simpa [h.noSemicolon] using (by decide : (0x3B : UInt8) ∉ utf8 " not matched (")
  have hline : (0x20 : UInt8) ∉ Text.ofInt (place l.pos).line :=
    Text.not_mem_ofInt rfl (by decide) _
  have htail : (0x20 : UInt8) ∉ utf8 ":" ++ Text.ofInt (place l.pos).line ++ utf8 ")" := by
    simpa [hline] using (by decide : (0x20 : UInt8) ∉ utf8 ":" ∧ (0x20 : UInt8) ∉ utf8 ")")
  have hcut : entryText place l = (l.name ++ utf8 " not matched (") ++ ((place l.pos).filename ++
      (utf8 ":" ++ Text.ofInt (place l.pos).line ++ utf8 ")")) := by
    simp [entryText]
  have hfirst : noteSeparator = 0x3B :: utf8 " " := rfl
  have hlast : noteSeparator = utf8 ";" ++ [0x20] := rfl
  rw [hcut, hfirst, Text.infix_append_iff_right hlead, ← hfirst, hlast,
    Text.infix_append_iff_left htail]

theorem relatedText_of_isEntry {place : Pos → Place} {l : Literal} (h : IsEntry place l) :
    ∃ r, Analysis.relatedTo l = some r ∧ Engine.relatedText place r = entryText place l := by
  refine ⟨⟨l.pos, l.pos + l.name.length, l.name ++ utf8 " not matched"⟩, ?_, ?_⟩
  · simp [Analysis.relatedTo, h.named, h.declared]
  · have hlead : utf8 " not matched (" = utf8 " not matched" ++ utf8 " (" := rfl
    simp [Engine.relatedText, h.known, entryText, hlead]

theorem noteOf_filterMap {place : Pos → Place} {constants : List Literal}
    (h : ∀ l ∈ constants, IsEntry place l) :
    Engine.noteOf place (constants.filterMap Analysis.relatedTo) =
      Text.join noteSeparator (constants.map (entryText place)) := by
  have hmap : (constants.filterMap Analysis.relatedTo).map (Engine.relatedText place) =
      constants.map (entryText place) := by
    induction constants with
    | nil => rfl
    | cons l constants ih =>
      obtain ⟨hl, hconstants⟩ := List.forall_mem_cons.mp h
      obtain ⟨r, hr, htext⟩ := relatedText_of_isEntry hl
      rw [List.filterMap_cons_some hr, List.map_cons, htext, ih hconstants, List.map_cons]
  rw [Engine.noteOf, hmap]
  rfl

theorem printsTexts_entries_iff (colours : Bool) (lines : List Text) {place : Pos → Place}
    {constants : List Literal} (hne : constants ≠ []) (h : ∀ l ∈ constants, IsEntry place l)
    (hnote : i.note = Text.join noteSeparator (constants.map (entryText place))) :
    PrintsTexts colours lines i (constants.map (entryText place)) ↔
      ∀ l ∈ constants, ¬ noteSeparator <:+: (place l.pos).filename := by
  have htexts : constants.map (entryText place) ≠ [] := by simpa using hne
  have hnonempty : i.note ≠ [] := by
    obtain ⟨l, rest, rfl⟩ := List.exists_cons_of_ne_nil hne
    have hl : entryText place l ≠ [] := by simp [entryText, (h l List.mem_cons_self).named]
    rw [hnote]
    cases rest with
    | nil => exact hl
    | cons l' rest => simp [Text.join, hl]
  rw [printsTexts_iff colours lines hnonempty htexts hnote, List.forall_mem_map]
  refine forall₂_congr fun l hl => ?_
  rw [infix_entryText_iff (h l hl)]

/-- The constants of a note get one line each in the report, in their order, with their own text,
exactly if none of the files in which they are declared has a name that holds what separates the
parts of a note. -/
theorem printsEntries_iff (colours : Bool) (lines : List Text) {place : Pos → Place}
    {constants : List Literal} (hne : constants ≠ []) (h : ∀ l ∈ constants, IsEntry place l)
    (hnote : i.note = Engine.noteOf place (constants.filterMap Analysis.relatedTo)) :
    PrintsTexts colours lines i (constants.map (entryText place)) ↔
      ∀ l ∈ constants, ¬ utf8 "; " <:+: (place l.pos).filename :=
  printsTexts_entries_iff colours lines hne h (hnote.trans (noteOf_filterMap h))

/-- Two constants that are declared in different files. -/
def constants : List Literal := [⟨⟨some (.int 0)⟩, "A", 1⟩, ⟨⟨some (.int 1)⟩, "B", 2⟩]

/-- An issue about the constants, which are declared at the given places. -/
def issueAbout (place : Pos → Place) : Issue :=
  ⟨"totality-check", "totality", "d.go", "Match not exhaustive, values not matched: 0, 1",
    Engine.noteOf place (constants.filterMap Analysis.relatedTo), ⟨"d.go", 10, 2, 1⟩,
    ⟨"d.go", 18, 2, 9⟩, .error⟩

/-- The constants are declared in two files; `name` is the name of the first one. -/
def placeIn (name : Text) (p : Pos) : Place :=
  if p = 1 then ⟨name, 0, 7, 2⟩ else ⟨"b c.go", 40, 12, 2⟩

theorem isEntry_constants (name : Text) : ∀ l ∈ constants, IsEntry (placeIn name) l := by
  intro l hl
  rcases List.mem_cons.mp hl with rfl | hl
  · exact ⟨by decide, by decide, by decide, rfl⟩
  · cases List.mem_singleton.mp hl
    exact ⟨by decide, by decide, by decide, rfl⟩

/-- A semicolon in the name of a file does no harm without a blank behind it. -/
theorem printsEntries_semicolon :
    constants ≠ [] ∧ (∀ l ∈ constants, IsEntry (placeIn "a;b.go") l) ∧
      PrintsTexts false [utf8 "package d", utf8 "switch x \x7b"] (issueAbout (placeIn "a;b.go"))
        (constants.map (entryText (placeIn "a;b.go"))) := by
  have hne : constants ≠ [] := List.cons_ne_nil _ _
  have hentries := isEntry_constants "a;b.go"
  refine ⟨hne, hentries, (printsEntries_iff false _ hne hentries rfl).mpr ?_⟩
  intro l hl hcut
  rcases List.mem_cons.mp hl with rfl | hl
  · exact absurd (hcut.subset (by decide : (0x20 : UInt8) ∈ utf8 "; ")) (by decide)
  · cases List.mem_singleton.mp hl
    exact absurd (hcut.subset (by decide : (0x3B : UInt8) ∈ utf8 "; ")) (by decide)

/-- With a blank behind it the line of the constant is cut. -/
theorem not_printsEntries_separator :
    constants ≠ [] ∧ (∀ l ∈ constants, IsEntry (placeIn "a; b.go") l) ∧
      ¬ PrintsTexts false [utf8 "package d", utf8 "switch x \x7b"] (issueAbout (placeIn "a; b.go"))
        (constants.map (entryText (placeIn "a; b.go"))) := by
  have hne : constants ≠ [] := List.cons_ne_nil _ _
  have hentries := isEntry_constants "a; b.go"
  have hcut : noteSeparator <:+: (placeIn "a; b.go" 1).filename := ⟨utf8 "a", utf8 "b.go", rfl⟩
  refine ⟨hne, hentries, fun hshown => ?_⟩
  have hfree := (printsTexts_entries_iff false _ hne hentries (noteOf_filterMap hentries)).mp hshown
  exact hfree _ List.mem_cons_self hcut

end CaseCover.Report
