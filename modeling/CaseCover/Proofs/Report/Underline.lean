import CaseCover.Proofs.Report.Columns
import CaseCover.Proofs.Report.SharedIndent
import CaseCover.Proofs.Report.ShownLines

/-!
# The underline of a report

An issue on one line is shown as two rows: the line without its indent, and tildes below it. Both
rows start with a gutter of the same width, and the width of the indent is taken away from the
display column of the issue, so the tildes stand below the part of the line that the issue is about
(`issue_isUnderlined`). This is so for every indent, also of tabs, as the indent starts the line.
-/

namespace CaseCover.Report

open Layout
open Text (Character characters ofCharacters)

/-! ## Rows -/

/-- What stands in front of a line in a report. -/
def numberGutter (n : Nat) : Text := Text.ofNat n ++ utf8 " | "

/-- What stands in front of the tildes below a line in a report. -/
def plainGutter (n : Nat) : Text := blanks ((Text.ofNat n).length + 1) ++ utf8 "| "

/-- The plain report of an issue on line `n` in two rows: a text, and tildes behind some blanks. -/
def twoRows (i : Issue) (n : Nat) (shown : Text) (offset count : Nat) : Text :=
  let width := (Text.ofNat n).length
  header false i width ++ utf8 "\n" ++ blanks (width + 1) ++ utf8 "|\n" ++
    (numberGutter n ++ shown ++ utf8 "\n") ++
    (plainGutter n ++ blanks offset ++ Text.repeated count 0x7E ++ utf8 "\n") ++
    (blanks (width + 1) ++ utf8 "= " ++ i.message) ++
    (if i.note.isEmpty then [] else
      utf8 "\n" ++ Text.join "\n" (noteLines false i.note width)) ++ utf8 "\n\n"

/-- What a report shows of a line before a byte column. -/
def shownBefore (line : Text) (column : Nat) : Text :=
  (line.take (column - 1)).drop (Text.leadingSpace line).length

/-- An issue is about a part of line `n` of a source. The part starts with the character at byte
column `first`, behind the indent of the line. It stops before the one at `last`, or with the line,
and no tab stands between the indent and this place. -/
structure IsOnLine (lines : List Text) (i : Issue) (n : Nat) (line : Text) (first last : Nat) :
    Prop where
  positive : 0 < n
  lineAt : lines[n - 1]? = some line
  startLine : i.start.line = n
  stopLine : i.stop.line = n
  startColumn : i.start.column = first
  stopColumn : i.stop.column = last
  isStart : ∃ c, (first, c) ∈ placed line
  isStop : IsColumn line last
  le : first ≤ last
  behindIndent : (Text.leadingSpace line).length < first
  noTab : ∀ p ∈ placed line, (Text.leadingSpace line).length < p.1 → p.1 < last → p.2.code ≠ 9

/-- A report shows a line without its indent, and tildes right below a part of it. -/
structure IsUnderlined (report : Text) (i : Issue) (n : Nat) (line : Text)
    (first last offset count : Nat) : Prop where
  rows : report = twoRows i n (Text.trimLeft line) offset count
  shown : Text.trimLeft line = shownBefore line first ++ line.drop (first - 1)
  /-- The gutters are equally wide. -/
  gutters : width (characters (numberGutter n)) = width (characters (plainGutter n))
  /-- The first tilde stands below the first character of the part. -/
  start : width (characters (numberGutter n ++ shownBefore line first)) =
    width (characters (plainGutter n ++ blanks offset))
  /-- There is a tilde for each character of the part, and one more. -/
  count_eq : count = (placed line).countP (fun p => first ≤ p.1 && p.1 < last) + 1
  /-- The last tilde stands below what follows the part. -/
  stop : width (characters (numberGutter n ++ shownBefore line last)) =
    width (characters (plainGutter n ++ blanks offset ++ Text.repeated (count - 1) 0x7E))

variable {lines : List Text} {i : Issue} {n first last : Nat} {line : Text}

/-! ## The parts of the line -/

/-- The line is its indent, what stands before the part, the part and the rest. -/
theorem IsOnLine.exists_parts (h : IsOnLine lines i n line first last) :
    ∃ indent before covered after,
      (characters line).takeWhile Character.isSpace = indent ∧
      characters line = indent ++ (before ++ (covered ++ after)) ∧ covered ++ after ≠ [] ∧
      first = (ofCharacters (indent ++ before)).length + 1 ∧
      last = (ofCharacters (indent ++ (before ++ covered))).length + 1 ∧
      ∀ c ∈ before ++ covered, c.code ≠ 9 := by
  have hbehind : (ofCharacters ((characters line).takeWhile Character.isSpace)).length < first :=
    h.behindIndent
  have hnoTab (p) (hp : p ∈ placed line)
      (hlt : (ofCharacters ((characters line).takeWhile Character.isSpace)).length < p.1) :=
    h.noTab p hp hlt
  have hindent : characters line = (characters line).takeWhile Character.isSpace ++
    (characters line).dropWhile Character.isSpace := List.takeWhile_append_dropWhile.symm
  generalize hdef : (characters line).takeWhile Character.isSpace = indent at *
  obtain ⟨c, hc⟩ := h.isStart
  obtain ⟨toFirst, rest, hfirst, hfirstColumn⟩ := mem_placed_iff.mp hc
  obtain ⟨toLast, after, hlast, hlastColumn⟩ := isColumn_iff.mp h.isStop
  have hle := h.le
  obtain ⟨before, rfl⟩ := prefix_of_length_le hindent hfirst (by omega)
  obtain ⟨covered, rfl⟩ := prefix_of_length_le hfirst hlast (by omega)
  rw [List.append_assoc] at hlastColumn
  have hrest : covered ++ after = c :: rest := by
    rw [hlast, List.append_assoc (indent ++ before)] at hfirst
    exact List.append_cancel_left hfirst
  refine ⟨indent, before, covered, after, rfl, by simpa using hlast, ?_, by omega, hlastColumn, ?_⟩
  · rw [hrest]
    exact List.cons_ne_nil _ _
  · intro d hd
    have hcut : characters line = indent ++ ((before ++ covered) ++ after) := by simpa using hlast
    obtain ⟨column, hplaced, hlt, hlt'⟩ := exists_placed_of_mem hcut hd
    exact hnoTab _ hplaced hlt (hlastColumn ▸ hlt')

/-! ## The rows of one line -/

/-- Only the line itself has its number. -/
theorem shownLines_singleton (hpos : 0 < n) (hline : lines[n - 1]? = some line) :
    shownLines lines n n = [(n, line)] := by
  have hindex : ((n : Int) - 1).toNat = n - 1 := by omega
  rw [shownLines_step (Int.le_refl _), shownLines_of_lt (Int.lt_succ _), List.append_nil, rowAt,
    if_pos (by omega), hindex, hline]
  rfl

theorem paint_false (m : Mark) (t : Text) : m.paint false t = t := rfl

theorem issue_eq_twoRows (hpos : 0 < n) (hline : lines[n - 1]? = some line)
    (hstart : i.start.line = n) (hstop : i.stop.line = n)
    (hindent : sharedIndent [line] = Text.leadingSpace line) :
    issue false lines i = twoRows i n (Text.trimLeft line)
      (underline lines n n i.start.column i.stop.column (Text.leadingSpace line)).1
      (underline lines n n i.start.column i.stop.column (Text.leadingSpace line)).2 := by
  have hlt : n - 1 < lines.length := (List.getElem?_eq_some_iff.mp hline).1
  have hrange : isLineRange n n lines.length = true := by
    simp [isLineRange, hpos, show n ≤ lines.length by omega]
  have hstrip : Text.stripLead? (Text.leadingSpace line) line = some (Text.trimLeft line) :=
    Text.stripLead?_eq_some_iff.mpr (Text.leadingSpace_append_trimLeft line).symm
  have hnumber : Text.ofInt n = Text.ofNat n := rfl
  have hpad : padLeft (Text.ofNat n).length (Text.ofNat n) = Text.ofNat n := by simp [padLeft]
  have hbar : utf8 "|\n" = utf8 "|" ++ utf8 "\n" := rfl
  simp only [issue, hstart, hstop, Int.max_self, Int.lt_irrefl, hrange, if_true, if_false,
    shownLines_singleton hpos hline, List.map_cons, List.map_nil, hindent, numberWidth, hnumber,
    snippet, List.flatMap_cons, List.flatMap_nil, hstrip, Option.getD_some, hpad, footer,
    paint_false, twoRows, numberGutter, plainGutter, hbar, List.append_nil, List.append_assoc]

/-- The width of the indent cancels out. -/
theorem underline_eq {indent before covered after : List Character} (hpos : 0 < n)
    (hline : lines[n - 1]? = some line)
    (hcut : characters line = indent ++ (before ++ (covered ++ after)))
    (hnoTab : ∀ c ∈ before ++ covered, c.code ≠ 9) :
    underline lines n n ((ofCharacters (indent ++ before)).length + 1 : Nat)
        ((ofCharacters (indent ++ (before ++ covered))).length + 1 : Nat) (ofCharacters indent) =
      (before.length, covered.length + 1) := by
  have hat : lineAt lines n = line := by
    rw [lineAt, show ((n : Int) - 1).toNat = n - 1 by omega, hline]
    rfl
  have hcutIndent : characters (ofCharacters indent) = indent ++ [] := by
    rw [(Text.characters_parts hcut).1, List.append_nil]
  have hcutFirst : characters line = (indent ++ before) ++ (covered ++ after) := by
    rw [hcut, List.append_assoc]
  have hcutLast : characters line = (indent ++ (before ++ covered)) ++ after := by
    rw [hcut, List.append_assoc, List.append_assoc]
  have hindent : displayColumn (ofCharacters indent) ((ofCharacters indent).length + 1) =
      width indent := displayColumn_eq_width hcutIndent
  have hfirst : displayColumn line ((ofCharacters (indent ++ before)).length + 1 : Nat) =
      width indent + before.length := by
    rw [displayColumn_eq_width hcutFirst,
      width_append fun c hc => hnoTab c (List.mem_append_left _ hc)]
  have hlast :
      displayColumn line ((ofCharacters (indent ++ (before ++ covered))).length + 1 : Nat) =
        width indent + (before.length + covered.length) := by
    rw [displayColumn_eq_width hcutLast, width_append hnoTab, List.length_append]
  rw [underline]
  simp only [hat, hindent, hfirst, hlast, Nat.add_sub_cancel_left, Prod.mk.injEq, true_and]
  omega

/-! ## The tildes below the part -/

theorem numberGutter_isNarrow : IsNarrow (numberGutter n) := by
  refine IsNarrow.append (fun b hb => ?_) (isNarrow_of_all (by decide))
  have hdigit := Text.isDigit_of_mem_ofNat hb
  rw [Text.isDigit, Bool.and_eq_true, decide_eq_true_iff, decide_eq_true_iff] at hdigit
  grind

theorem plainGutter_isNarrow : IsNarrow (plainGutter n) :=
  (isNarrow_repeated (by decide) _).append (isNarrow_of_all (by decide))

theorem length_gutters : (numberGutter n).length = (plainGutter n).length := by
  have hnumber : (utf8 " | ").length = 3 := by decide
  have hplain : (utf8 "| ").length = 2 := by decide
  rw [numberGutter, plainGutter, blanks, Text.repeated, List.length_append, List.length_append,
    List.length_replicate, hnumber, hplain]

theorem shownBefore_eq {indent cs ds : List Character}
    (hindent : (characters line).takeWhile Character.isSpace = indent)
    (hcut : characters line = indent ++ (cs ++ ds)) :
    shownBefore line ((ofCharacters (indent ++ cs)).length + 1) = ofCharacters cs := by
  have hspace : Text.leadingSpace line = ofCharacters indent := hindent ▸ rfl
  have hline : line = ofCharacters (indent ++ cs) ++ ofCharacters ds := by
    rw [← Text.ofCharacters_append, List.append_assoc, ← hcut, Text.ofCharacters_characters]
  rw [shownBefore, hspace, Nat.add_sub_cancel]
  conv_lhs => rw [hline, List.take_left, Text.ofCharacters_append, List.drop_left]

theorem trimLeft_eq_shownBefore_append {column : Nat}
    (h : (Text.leadingSpace line).length ≤ column - 1) :
    Text.trimLeft line = shownBefore line column ++ line.drop (column - 1) := by
  have hspace := Text.leadingSpace_append_trimLeft line
  have hshown := congrArg (List.drop (Text.leadingSpace line).length) hspace
  rw [List.drop_left] at hshown
  have hle : (Text.leadingSpace line).length ≤ (line.take (column - 1)).length := by
    have hlength := congrArg List.length hspace
    rw [List.length_append] at hlength
    rw [List.length_take]
    omega
  rw [hshown, shownBefore, ← List.drop_append_of_le_length hle, List.take_append_drop]

/-- The tildes below blanks take one cell each, like the characters that are shown above them. -/
theorem width_rows_eq {cs : List Character} {tildes : Nat}
    (hcs : characters (ofCharacters cs) = cs) (hnoTab : ∀ c ∈ cs, c.code ≠ 9) (offset : Nat)
    (hlength : cs.length = offset + tildes) :
    width (characters (numberGutter n ++ ofCharacters cs)) =
      width (characters (plainGutter n ++ blanks offset ++ Text.repeated tildes 0x7E)) := by
  have hlower : IsNarrow (plainGutter n ++ blanks offset ++ Text.repeated tildes 0x7E) :=
    (plainGutter_isNarrow.append (isNarrow_repeated (by decide) _)).append
      (isNarrow_repeated (by decide) _)
  rw [width_narrow hlower, width_narrow_append numberGutter_isNarrow (hcs.symm ▸ hnoTab), hcs,
    hlength]
  simp [length_gutters, blanks, Text.repeated]

/-- The tildes of an issue on one line stand right below the part of the line that it is about. -/
theorem issue_isUnderlined (h : IsOnLine lines i n line first last) :
    ∃ offset count,
      IsUnderlined (issue false lines i) i n line first last offset count := by
  obtain ⟨indent, before, covered, after, hindent, hcut, hne, hfirst, hlast, hnoTab⟩ :=
    h.exists_parts
  have hspace : Text.leadingSpace line = ofCharacters indent := hindent ▸ rfl
  have hcut' : characters line = indent ++ ((before ++ covered) ++ after) := by
    rw [hcut, List.append_assoc]
  have hbefore : shownBefore line first = ofCharacters before :=
    hfirst ▸ shownBefore_eq hindent hcut
  have hupTo : shownBefore line last = ofCharacters (before ++ covered) :=
    hlast ▸ shownBefore_eq hindent hcut'
  -- the characters of the parts are those of the line
  have hshown := (Text.characters_parts hcut).2
  have hcharacters := (Text.characters_parts hshown).1
  have hcharacters' := (Text.characters_parts (Text.characters_parts hcut').2).1
  have hunderline := underline_eq h.positive h.lineAt hcut hnoTab
  rw [← hfirst, ← hlast, ← hspace, ← h.startColumn, ← h.stopColumn] at hunderline
  have hindentEq : sharedIndent [line] = Text.leadingSpace line := by
    refine sharedIndent_singleton fun hblank => ?_
    -- a blank line would end with its indent
    rw [Text.IsBlank, ← List.takeWhile_eq_self_iff, hindent, hcut] at hblank
    exact hne (List.append_eq_nil_iff.mp (List.self_eq_append_right.mp hblank)).2
  refine ⟨before.length, covered.length + 1, ?rows, ?shown, ?gutters, ?start, ?count, ?stop⟩
  case rows =>
    rw [issue_eq_twoRows h.positive h.lineAt h.startLine h.stopLine hindentEq, hunderline]
  case shown => exact trimLeft_eq_shownBefore_append (Nat.le_sub_one_of_lt h.behindIndent)
  case gutters =>
    rw [width_narrow numberGutter_isNarrow, width_narrow plainGutter_isNarrow, length_gutters]
  case start =>
    have hrow := width_rows_eq (n := n) hcharacters
      (fun c hc => hnoTab c (List.mem_append_left _ hc)) before.length (Nat.add_zero _).symm
    have hnone : Text.repeated 0 0x7E = [] := rfl
    rw [hnone, List.append_nil] at hrow
    rw [hbefore, hrow]
  case count =>
    have hcount := countP_placed (List.append_assoc indent before _ ▸ hcut)
    rw [← hfirst, List.append_assoc, ← hlast] at hcount
    rw [hcount]
  case stop =>
    rw [hupTo]
    exact width_rows_eq hcharacters' hnoTab before.length List.length_append

/-- A line with a tab and a blank as its indent, and a character of two bytes. -/
def tabbedLine : Text := "\t a.\u00e9()"

/-- An issue about the line, from its first letter to the bracket. -/
def tabbedIssue : Issue :=
  ⟨"totality-check", "totality", "d.go", "Match not exhaustive", [], ⟨"d.go", 12, 2, 3⟩,
    ⟨"d.go", 16, 2, 7⟩, .error⟩

theorem tabbedIssue_isOnLine :
    IsOnLine [utf8 "package d", tabbedLine] tabbedIssue 2 tabbedLine 3 7 where
  positive := Nat.two_pos
  lineAt := rfl
  startLine := rfl
  stopLine := rfl
  startColumn := rfl
  stopColumn := rfl
  isStart := ⟨⟨0x61, [0x61]⟩, by decide⟩
  isStop := .inr ⟨⟨0x28, [0x28]⟩, by decide⟩
  le := by decide
  behindIndent := by decide
  noTab := by decide

theorem tabbedIssue_isUnderlined :
    IsOnLine [utf8 "package d", tabbedLine] tabbedIssue 2 tabbedLine 3 7 ∧
      ∃ offset, IsUnderlined (issue false [utf8 "package d", tabbedLine] tabbedIssue) tabbedIssue 2
        tabbedLine 3 7 offset 4 := by
  refine ⟨tabbedIssue_isOnLine, ?_⟩
  obtain ⟨offset, count, hunderlined⟩ := issue_isUnderlined tabbedIssue_isOnLine
  -- the letter, the dot and the character of two bytes, and one more
  have hcount : count = 4 := hunderlined.count_eq.trans (by decide)
  exact ⟨offset, hcount ▸ hunderlined⟩

end CaseCover.Report
