import CaseCover.Report

/-!
# The lines of a report

A report shows the lines of the source from the first to the last line of the issue. Line numbers
come with the issue and the lines from a file that may have changed since, so the numbers may lie
anywhere. Whatever they are, the lines between them that there are come once each, in their order,
and no other line does (`areLinesOf_shownLines`); there is only one list of which this is true
(`AreLinesOf.unique`).

What else a report shows does not depend on the lines, apart from the place and the length of the
underline (`issue_eq`).
-/

namespace CaseCover.Report

/-- The rows are the lines of a source from one number to another, with their numbers: all of them,
each once, in their order, and no others. -/
structure AreLinesOf (lines : List Text) (start stop : Int) (rows : List (Nat × Text)) : Prop where
  inOrder : rows.Pairwise fun p q => p.1 < q.1
  mem_iff : ∀ n line, (n, line) ∈ rows ↔
    start ≤ n ∧ n ≤ stop ∧ 0 < n ∧ lines[n - 1]? = some line

variable {lines : List Text} {start stop : Int} {rows rows' : List (Nat × Text)}

/-! ## Rows -/

theorem AreLinesOf.nodup (h : AreLinesOf lines start stop rows) : rows.Nodup := by
  refine h.inOrder.imp fun {p q} hlt heq => ?_
  rw [heq] at hlt
  exact Nat.lt_irrefl _ hlt

/-- The order and the members leave no choice. -/
theorem AreLinesOf.unique (h : AreLinesOf lines start stop rows)
    (h' : AreLinesOf lines start stop rows') : rows = rows' := by
  have hmem : ∀ p, p ∈ rows ↔ p ∈ rows' := by
    intro p
    rw [h.mem_iff p.1 p.2, h'.mem_iff p.1 p.2]
  refine List.Perm.eq_of_pairwise ?_ h.inOrder h'.inOrder
    ((List.perm_ext_iff_of_nodup h.nodup h'.nodup).mpr hmem)
  intro p q _ _ hpq hqp
  omega

theorem pairwise_zip_range' (m : Nat) (ls : List Text) :
    ((List.range' m ls.length).zip ls).Pairwise fun p q => p.1 < q.1 := by
  have hnumbers : ((List.range' m ls.length).zip ls).map (·.1) = List.range' m ls.length :=
    List.map_fst_zip (by simp)
  have hlt := List.pairwise_lt_range' (s := m) (n := ls.length)
  rw [← hnumbers] at hlt
  exact List.pairwise_map.mp hlt

theorem mem_zip_range' {m n : Nat} {ls : List Text} {line : Text} :
    (n, line) ∈ (List.range' m ls.length).zip ls ↔ m ≤ n ∧ ls[n - m]? = some line := by
  induction ls generalizing m with
  | nil => simp
  | cons l ls ih =>
    rw [List.length_cons, List.range'_succ, List.zip_cons_cons, List.mem_cons, ih, Prod.mk.injEq]
    constructor
    · rintro (⟨rfl, rfl⟩ | ⟨hle, hline⟩)
      · simp
      · have hlater : n - m = (n - (m + 1)) + 1 := by omega
        rw [hlater, List.getElem?_cons_succ]
        exact ⟨by omega, hline⟩
    · rintro ⟨hle, hline⟩
      rcases Nat.eq_or_lt_of_le hle with rfl | hlt
      · rw [Nat.sub_self, List.getElem?_cons_zero] at hline
        exact .inl ⟨rfl, (Option.some.inj hline).symm⟩
      · have hlater : n - m = (n - (m + 1)) + 1 := by omega
        rw [hlater, List.getElem?_cons_succ] at hline
        exact .inr ⟨hlt, hline⟩

theorem areLinesOf_shownLines (lines : List Text) (start stop : Int) :
    AreLinesOf lines start stop (shownLines lines start stop) where
  inOrder := (pairwise_zip_range' 1 lines).filter _
  mem_iff n line := by
    rw [shownLines, numbered, List.mem_filter, mem_zip_range']
    simp only [Bool.and_eq_true, decide_eq_true_eq]
    constructor
    · rintro ⟨⟨hpos, hline⟩, hstart, hstop⟩
      exact ⟨hstart, hstop, hpos, hline⟩
    · rintro ⟨hstart, hstop, hpos, hline⟩
      exact ⟨⟨hpos, hline⟩, hstart, hstop⟩

theorem shownLines_of_lt (h : stop < start) : shownLines lines start stop = [] := by
  refine (areLinesOf_shownLines lines start stop).unique ⟨List.Pairwise.nil, fun n line => ?_⟩
  simp only [List.not_mem_nil, false_iff]
  omega

/-- The line with a number, if there is one. -/
def rowAt (lines : List Text) (i : Int) : List (Nat × Text) :=
  if 0 < i then (lines[(i - 1).toNat]?).toList.map fun line => (i.toNat, line) else []

theorem mem_rowAt {i : Int} {n : Nat} {line : Text} :
    (n, line) ∈ rowAt lines i ↔ 0 < n ∧ (n : Int) = i ∧ lines[n - 1]? = some line := by
  unfold rowAt
  split
  · next hpos =>
    have hindex : (i - 1).toNat = i.toNat - 1 := by omega
    simp only [List.mem_map, Option.mem_toList, Prod.mk.injEq, hindex]
    constructor
    · rintro ⟨line', hline, rfl, rfl⟩
      exact ⟨by omega, by omega, hline⟩
    · rintro ⟨_, rfl, hline⟩
      exact ⟨line, hline, by omega, rfl⟩
  · next hpos =>
    simp only [List.not_mem_nil, false_iff]
    omega

/-- The lines from a number on are the one with this number and those from the next number on. -/
theorem shownLines_step (h : start ≤ stop) :
    shownLines lines start stop = rowAt lines start ++ shownLines lines (start + 1) stop := by
  have hrest := areLinesOf_shownLines lines (start + 1) stop
  refine (areLinesOf_shownLines lines start stop).unique ⟨?_, fun n line => ?_⟩
  · have hone : (rowAt lines start).Pairwise fun p q => p.1 < q.1 := by
      unfold rowAt
      split
      · cases lines[(start - 1).toNat]? <;> simp
      · exact List.Pairwise.nil
    refine List.pairwise_append.mpr ⟨hone, hrest.inOrder, ?_⟩
    rintro ⟨n, line⟩ hn ⟨n', line'⟩ hn'
    have hn := mem_rowAt.mp hn
    have hn' := (hrest.mem_iff n' line').mp hn'
    show n < n'
    omega
  · rw [List.mem_append, mem_rowAt, hrest.mem_iff]
    constructor
    · rintro (⟨hpos, hn, hline⟩ | ⟨hstart, hstop, hpos, hline⟩)
      · exact ⟨by omega, by omega, hpos, hline⟩
      · exact ⟨by omega, hstop, hpos, hline⟩
    · rintro ⟨hstart, hstop, hpos, hline⟩
      by_cases heq : (n : Int) = start
      · exact .inl ⟨hpos, heq, hline⟩
      · exact .inr ⟨by omega, hstop, hpos, hline⟩

/-- The lines that are shown are a part of the source. -/
theorem map_shownLines (hstart : 0 < start) :
    (shownLines lines start stop).map (·.2) =
      (lines.take stop.toNat).drop (start - 1).toNat := by
  generalize hpart : (lines.take stop.toNat).drop (start - 1).toNat = part
  have hrows : AreLinesOf lines start stop ((List.range' start.toNat part.length).zip part) := by
    refine ⟨pairwise_zip_range' _ _, fun n line => ?_⟩
    rw [mem_zip_range', ← hpart, List.getElem?_drop]
    by_cases hle : start.toNat ≤ n
    · have hindex : (start - 1).toNat + (n - start.toNat) = n - 1 := by omega
      rw [hindex, List.getElem?_take]
      split
      · exact ⟨fun h => ⟨by omega, by omega, by omega, h.2⟩, fun h => ⟨hle, h.2.2.2⟩⟩
      · simp only [reduceCtorEq, and_false, false_iff]
        omega
    · refine ⟨fun h => absurd h.1 hle, fun h => ?_⟩
      omega
  rw [(areLinesOf_shownLines lines start stop).unique hrows, List.map_snd_zip (by simp)]

/-! ## Parts of a report -/

/-- The number of the last line that a report shows. -/
def lastLine (i : Issue) : Int := max i.stop.line i.start.line

/-- The column at which the underline ends. -/
def lastColumn (i : Issue) : Int :=
  if i.stop.line < i.start.line then i.start.column else i.stop.column

/-- The lines of the issue are all there. -/
def isCovered (lines : List Text) (i : Issue) : Bool :=
  Layout.isLineRange i.start.line (lastLine i) lines.length

/-- The indent that a report leaves out. -/
def droppedIndent (lines : List Text) (i : Issue) : Text :=
  if isCovered lines i then
    Layout.sharedIndent ((shownLines lines i.start.line (lastLine i)).map (·.2))
  else []

/-- A line of the source in a report, below what comes before it. -/
def row (colours : Bool) (width : Nat) (indent : Text) (p : Nat × Text) : Text :=
  utf8 "\n" ++ Mark.line.paint colours (Layout.padLeft width (Text.ofNat p.1) ++ utf8 " | ") ++
    (Text.stripLead? indent p.2).getD p.2

/-- What a report shows above the lines of the source. -/
def opening (colours : Bool) (i : Issue) : Text :=
  let width := Layout.numberWidth (lastLine i)
  header colours i width ++ utf8 "\n" ++ Mark.line.paint colours (blanks (width + 1) ++ utf8 "|")

/-- What a report shows right below the lines of the source: tildes behind some blanks, if the lines
are there, and the message. -/
def messageRows (colours : Bool) (i : Issue) (tildes : Option (Nat × Nat)) : Text :=
  let gutter := blanks (Layout.numberWidth (lastLine i) + 1)
  let underlined :=
    match tildes with
    | some (offset, length) =>
      blanks offset ++ Mark.message.paint colours (Text.repeated length 0x7E ++ utf8 "\n") ++
        Mark.line.paint colours (gutter ++ utf8 "= ")
    | none => []
  Mark.line.paint colours (gutter ++ utf8 "| ") ++ underlined ++
    Mark.message.paint colours i.message

/-- What a report shows of the note of an issue. -/
def noteRows (colours : Bool) (i : Issue) : Text :=
  if i.note.isEmpty then []
  else utf8 "\n" ++ Text.join "\n" (noteLines colours i.note (Layout.numberWidth (lastLine i)))

/-- All that a report shows below the lines of the source. -/
def closing (colours : Bool) (i : Issue) (tildes : Option (Nat × Nat)) : Text :=
  utf8 "\n" ++ messageRows colours i tildes ++ noteRows colours i ++ utf8 "\n\n"

/-- Where the underline of an issue is. -/
def tildes (lines : List Text) (i : Issue) : Option (Nat × Nat) :=
  if isCovered lines i then
    some (underline lines i.start.line (lastLine i) i.start.column (lastColumn i)
      (droppedIndent lines i))
  else none

theorem footer_eq (colours : Bool) (lines : List Text) (i : Issue) :
    footer colours i.message lines i.start.line (lastLine i) i.start.column (lastColumn i)
      (Layout.numberWidth (lastLine i)) (droppedIndent lines i) =
        messageRows colours i (tildes lines i) := by
  unfold footer messageRows tildes isCovered
  split <;> simp

/-- A report is made of its opening, the lines of the source and what stands below them. -/
theorem issue_eq (colours : Bool) (lines : List Text) (i : Issue) :
    issue colours lines i = opening colours i ++
      (shownLines lines i.start.line (lastLine i)).flatMap
        (row colours (Layout.numberWidth (lastLine i)) (droppedIndent lines i)) ++
      closing colours i (tildes lines i) := by
  have hissue : issue colours lines i =
      header colours i (Layout.numberWidth (lastLine i)) ++ utf8 "\n" ++
        snippet colours lines i.start.line (lastLine i) (Layout.numberWidth (lastLine i))
          (droppedIndent lines i) ++ utf8 "\n" ++
        footer colours i.message lines i.start.line (lastLine i) i.start.column (lastColumn i)
          (Layout.numberWidth (lastLine i)) (droppedIndent lines i) ++
        noteRows colours i ++ utf8 "\n\n" := rfl
  have hsnippet : snippet colours lines i.start.line (lastLine i)
      (Layout.numberWidth (lastLine i)) (droppedIndent lines i) =
        Mark.line.paint colours (blanks (Layout.numberWidth (lastLine i) + 1) ++ utf8 "|") ++
          (shownLines lines i.start.line (lastLine i)).flatMap
            (row colours (Layout.numberWidth (lastLine i)) (droppedIndent lines i)) := rfl
  rw [hissue, hsnippet, footer_eq]
  simp only [opening, closing, List.append_assoc]

end CaseCover.Report
