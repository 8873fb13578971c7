import CaseCover.Proofs.Report.SharedIndent
import CaseCover.Proofs.Report.ShownLines
import Mathlib.Data.List.Forall2

/-!
# Making a report with care

A report is made by looking up lines and characters by number, by cutting lists between two places
and by repeating bytes a number of times; line numbers are counted up in 64 binary digits. Numbers
that come with an issue may be any such number, so all this could go wrong. The careful printer checks
every access, every cut and every count, and walks along the lines round by round, until the rounds
do not suffice any more. It gets through for all issues with line numbers below the greatest one, and
comes to the same report (`carefulIssues_eq`). With the greatest number as the last line the walk
would never end (`carefulRows_greatest`).

Lengths and widths of texts are taken to fit: only what is computed from the numbers of an issue can
be too large.
-/

namespace CaseCover.Report

open Layout
open Text (Character characters)

/-- Why the careful printer gives up: there is no item with a number, a list cannot be cut between
two places, nothing can be repeated so many times, or it was not done in time. -/
inductive PrintFault where
  | noItem
  | badCut
  | negativeCount
  | noRounds
deriving DecidableEq

/-! ## Checked steps -/

/-- The greatest number of 64 binary digits with a sign. -/
def greatest : Int := 2 ^ 63 - 1

/-- A number in 64 binary digits with a sign: from the greatest one on it starts again at the
least. -/
def word (n : Int) : Int := (n + 2 ^ 63) % 2 ^ 64 - 2 ^ 63

/-- The item with a number, counted from zero. -/
def itemAt {α : Type} (xs : List α) (i : Int) : Except PrintFault α :=
  if i < 0 then .error .noItem
  else
    match xs[i.toNat]? with
    | some x => .ok x
    | none => .error .noItem

/-- The items from one place to another. -/
def cutOut {α : Type} (xs : List α) (start stop : Int) : Except PrintFault (List α) :=
  if 0 ≤ start ∧ start ≤ stop ∧ stop ≤ xs.length then
    .ok ((xs.take stop.toNat).drop start.toNat)
  else .error .badCut

/-- So many copies of one byte. -/
def copies (n : Int) (b : UInt8) : Except PrintFault Text :=
  if n < 0 then .error .negativeCount else .ok (Text.repeated n.toNat b)

/-- A list with another item in the place of one of its items. -/
def putAt {α : Type} (xs : List α) (i : Nat) (x : α) : Except PrintFault (List α) :=
  if i < xs.length then .ok (xs.set i x) else .error .noItem

/-! ## The careful printer -/

/-- The common start of two lists of code points, of which the first `i` are known to agree; `left`
counts those that are left in both. -/
def carefulStart (a b : List Nat) : Nat → Nat → Except PrintFault (List Nat)
  | 0, i => cutOut a 0 i
  | left + 1, i => do
    let x ← itemAt a i
    let y ← itemAt b i
    if x == y then carefulStart a b left (i + 1) else cutOut a 0 i

/-- The common indent of lines, given what is common of those before, if there are any. -/
def carefulIndent (common : Option (List Nat)) : List Text → Except PrintFault (List Nat)
  | [] => .ok (common.getD [])
  | line :: rest => do
    let trimmed := Text.trimLeft line
    if trimmed.isEmpty then carefulIndent common rest
    else
      let next := Text.codes (← cutOut line 0 (line.length - trimmed.length))
      match common with
      | none => carefulIndent (some next) rest
      | some indent =>
        let indent ← carefulStart indent next (min indent.length next.length) 0
        if indent.isEmpty then .ok [] else carefulIndent (some indent) rest

/-- The row of the line with a number, if there is one. -/
def carefulRow (row : Int → Text → Text) (lines : List Text) (n : Int) : Except PrintFault Text :=
  let index := word (n - 1)
  if index < 0 || (lines.length : Int) ≤ index then .ok []
  else (itemAt lines index).map (row n)

/-- The rows of the lines from number `n` on, in so many rounds. -/
def carefulRows (row : Int → Text → Text) (lines : List Text) (stop : Int) :
    Nat → Int → Except PrintFault Text
  | 0, _ => .error .noRounds
  | rounds + 1, n =>
    if stop < n then .ok []
    else do
      let shown ← carefulRow row lines n
      let later ← carefulRows row lines stop rounds (word (n + 1))
      return shown ++ later

/-- The blanks and the tildes of the underline. -/
def carefulTildes (lines : List Text) (i : Issue) (indent : Text) :
    Except PrintFault (Text × Text) := do
  let indentWidth : Int := displayColumn indent (indent.length + 1)
  let first ← itemAt lines (word (i.start.line - 1))
  let offset := max ((displayColumn first i.start.column : Int) - indentWidth) 0
  let last ← itemAt lines (word (lastLine i - 1))
  let stop := (displayColumn last (lastColumn i) : Int) - indentWidth
  let before ← copies offset 0x20
  let tildes ← copies (max (stop - offset + 1) 1) 0x7E
  return (before, tildes)

/-- The underline, if the lines are there, and the message. -/
def carefulMessage (colours : Bool) (lines : List Text) (i : Issue) (gutter indent : Text) :
    Except PrintFault Text := do
  let underlined ←
    if isCovered lines i then do
      let (before, tildes) ← carefulTildes lines i indent
      .ok (before ++ Mark.message.paint colours (tildes ++ utf8 "\n") ++
        Mark.line.paint colours (gutter ++ utf8 "= "))
    else .ok []
  return Mark.line.paint colours (gutter ++ utf8 "| ") ++ underlined ++
    Mark.message.paint colours i.message

/-- Puts the lines of a note into their places, from place `i` on. -/
def carefulNotes (line : Text → Text) (done : List Text) (i : Nat) :
    List Text → Except PrintFault (List Text)
  | [] => .ok done
  | part :: rest => do
    let done ← putAt done i (line part)
    carefulNotes line done (i + 1) rest

/-- The lines of the note, if there is one. -/
def carefulNote (colours : Bool) (i : Issue) (gutter : Text) : Except PrintFault Text := do
  if i.note.isEmpty then .ok []
  else do
    let notes ← carefulNotes
      (fun part => Mark.line.paint colours (gutter ++ utf8 "= ") ++
        Mark.note.paint colours "note: " ++ part)
      (List.replicate (Text.splitOn noteSeparator i.note).length []) 0
      (Text.splitOn noteSeparator i.note)
    .ok (utf8 "\n" ++ Text.join "\n" notes)

/-- The indent that is left out, if the lines are there. -/
def carefulDroppedIndent (lines : List Text) (i : Issue) : Except PrintFault Text :=
  if isCovered lines i then do
    let shown ← cutOut lines (word (i.start.line - 1)) (lastLine i)
    (carefulIndent none shown).map fun codes => codes.flatMap Text.ofCode
  else .ok []

/-- The report of one issue. -/
def carefulIssue (rounds : Nat) (colours : Bool) (lines : List Text) (i : Issue) :
    Except PrintFault Text := do
  let width := numberWidth (lastLine i)
  let indent ← carefulDroppedIndent lines i
  let gutter ← copies (width + 1) 0x20
  -- the header has one blank less in front of the place
  let _ ← copies width 0x20
  let rows ← carefulRows (fun n line => row colours width indent (n.toNat, line)) lines (lastLine i)
    rounds i.start.line
  let message ← carefulMessage colours lines i gutter indent
  let note ← carefulNote colours i gutter
  return opening colours i ++ rows ++ (utf8 "\n" ++ message ++ note ++ utf8 "\n\n")

/-- The reports of several issues. -/
def carefulIssues (rounds : Nat) (colours : Bool) (lines : List Text) :
    List Issue → Except PrintFault Text
  | [] => .ok []
  | i :: is => do
    let first ← carefulIssue rounds colours lines i
    return first ++ (← carefulIssues rounds colours lines is)

/-- The line numbers of an issue are numbers of 64 binary digits below the greatest one. -/
structure HasLineNumbers (i : Issue) : Prop where
  least : -2 ^ 63 ≤ i.start.line
  start : i.start.line < greatest
  stop : i.stop.line < greatest

/-- The rounds that it takes to walk along the lines of an issue. -/
def roundsFor (i : Issue) : Nat := (lastLine i - i.start.line + 2).toNat

variable {lines : List Text} {i : Issue} {colours : Bool}

/-! ## Checked steps that succeed -/

/-- A number that fits into a word stays as it is. -/
theorem word_of_fits {n : Int} (hleast : -2 ^ 63 ≤ n) (h : n ≤ greatest) : word n = n := by
  unfold word
  unfold greatest at h
  omega

theorem itemAt_natCast {α : Type} {xs : List α} {n : Nat} {x : α} (h : xs[n]? = some x) :
    itemAt xs n = .ok x := by
  unfold itemAt
  rw [if_neg (by omega), Int.toNat_natCast, h]

theorem cutOut_take {α : Type} {xs : List α} {n : Nat} (h : n ≤ xs.length) :
    cutOut xs 0 n = .ok (xs.take n) := by
  unfold cutOut
  rw [if_pos (by omega)]
  rfl

theorem copies_natCast (n : Nat) (b : UInt8) : copies n b = .ok (Text.repeated n b) := by
  unfold copies
  rw [if_neg (by omega), Int.toNat_natCast]

/-! ## The indent -/

/-- With `front` already compared, the walk goes on to the end of the common start. -/
theorem carefulStart_eq (front a b : List Nat) :
    carefulStart (front ++ a) (front ++ b) (min a.length b.length) front.length =
      .ok (front ++ commonStart a b) := by
  have hstop (front a : List Nat) : cutOut (front ++ a) 0 front.length = .ok front := by
    rw [cutOut_take (by simp), List.take_left]
  induction a generalizing front b with
  | nil =>
    rw [List.length_nil, Nat.zero_min, carefulStart, hstop, commonStart, List.append_nil]
    exact fun x a _ _ h => absurd h.symm (List.cons_ne_nil x a)
  | cons x a ih =>
    cases b with
    | nil => simp [carefulStart, hstop, commonStart]
    | cons y b =>
      have hx : itemAt (front ++ x :: a) front.length = .ok x := itemAt_natCast (by simp)
      have hy : itemAt (front ++ y :: b) front.length = .ok y := itemAt_natCast (by simp)
      have hmin : min (x :: a).length (y :: b).length = min a.length b.length + 1 := by
        simp only [List.length_cons]
        omega
      rw [hmin, carefulStart, hx, hy, commonStart]
      show (if x == y then _ else _) = _
      by_cases hxy : x = y
      · -- one more item is known to agree
        obtain rfl := hxy
        simpa using ih (front ++ [x]) b
      · simp [hxy, hstop]

/-- The white space in front of a line is cut out without a fault. -/
theorem cutOut_leadingSpace (line : Text) :
    cutOut line 0 (line.length - (Text.trimLeft line).length) = .ok (Text.leadingSpace line) := by
  have hline := Text.leadingSpace_append_trimLeft line
  have hlength := congrArg List.length hline
  rw [List.length_append] at hlength
  have hfront : (line.length : Int) - (Text.trimLeft line).length =
      (Text.leadingSpace line).length := by omega
  have htake : line.take (Text.leadingSpace line).length = Text.leadingSpace line := by
    generalize Text.leadingSpace line = lead at hline
    rw [← hline, List.take_left]
  rw [hfront, cutOut_take (by omega), htake]

/-- The indent of the lines still to come is joined to what is common so far. -/
theorem carefulIndent_some (indent : List Nat) (lines : List Text) :
    carefulIndent (some indent) lines = .ok (commonFrom indent (lines.filterMap indentOf?)) := by
  induction lines generalizing indent with
  | nil => rfl
  | cons line rest ih =>
    rw [carefulIndent, cutOut_leadingSpace, List.filterMap_cons, indentOf?_eq]
    by_cases hblank : Text.IsBlank line
    · simp only [Text.isEmpty_trimLeft_iff, hblank, ↓reduceIte]
      exact ih indent
    · have hstart := carefulStart_eq [] indent (Text.codes (Text.leadingSpace line))
      simp only [List.nil_append, List.length_nil] at hstart
      simp only [Text.isEmpty_trimLeft_iff, hblank, ↓reduceIte, bind, Except.bind, hstart,
        commonFrom]
      split
      · rfl
      · exact ih _

/-- With nothing common yet, the walk gives the indent that the lines share. -/
theorem carefulIndent_none (lines : List Text) :
    (carefulIndent none lines).map (fun codes => codes.flatMap Text.ofCode) =
      .ok (sharedIndent lines) := by
  induction lines with
  | nil => rfl
  | cons line rest ih =>
    rw [carefulIndent, cutOut_leadingSpace, sharedIndent, List.filterMap_cons, indentOf?_eq]
    by_cases hblank : Text.IsBlank line
    · simp only [Text.isEmpty_trimLeft_iff, hblank, ↓reduceIte]
      exact ih
    · simp only [Text.isEmpty_trimLeft_iff, hblank, ↓reduceIte, bind, Except.bind,
        carefulIndent_some]
      rfl

/-! ## The rows -/

theorem flatMap_rowAt (row : Int → Text → Text) {n : Int} (h : 0 < n) :
    (rowAt lines n).flatMap (fun p => row p.1 p.2) =
      ((lines[(n - 1).toNat]?).map (row n)).getD [] := by
  have hn : (n.toNat : Int) = n := by omega
  unfold rowAt
  rw [if_pos h]
  cases lines[(n - 1).toNat]? with
  | none => rfl
  | some line => simp [hn]

/-- What is shown at a number is the line with this number, if there is one. -/
theorem carefulRow_eq (row : Int → Text → Text) {n : Int} (hlines : lines.length ≤ greatest)
    (hleast : -2 ^ 63 ≤ n) (hn : n ≤ greatest) :
    carefulRow row lines n = .ok ((rowAt lines n).flatMap fun p => row p.1 p.2) := by
  have hrow : carefulRow row lines n =
      if word (n - 1) < 0 || (lines.length : Int) ≤ word (n - 1) then .ok []
      else (itemAt lines (word (n - 1))).map (row n) := rfl
  rw [hrow]
  by_cases hpos : 0 < n
  · have hindex : word (n - 1) = ((n - 1).toNat : Int) := by
      rw [word_of_fits (by omega) (by omega)]
      omega
    rw [flatMap_rowAt row hpos, hindex]
    cases hline : lines[(n - 1).toNat]? with
    | none =>
      have hle : (lines.length : Int) ≤ ((n - 1).toNat : Int) :=
        Int.ofNat_le.mpr (List.getElem?_eq_none_iff.mp hline)
      simp only [hle, decide_true, Bool.or_true, ↓reduceIte]
      rfl
    | some line =>
      have hlt : (((n - 1).toNat : Int)) < lines.length :=
        Int.ofNat_lt.mpr (List.getElem?_eq_some_iff.mp hline).1
      rw [itemAt_natCast hline, if_neg (by simp only [Bool.or_eq_true, decide_eq_true_eq]; omega)]
      rfl
  · have hnone : rowAt lines n = [] := if_neg hpos
    have hout : word (n - 1) < 0 ∨ (lines.length : Int) ≤ word (n - 1) := by
      -- in front of the least number stands the greatest one
      unfold word
      unfold greatest at hlines
      omega
    rw [hnone, if_pos (by simpa only [Bool.or_eq_true, decide_eq_true_eq] using hout)]
    rfl

/-- The walk over the numbers shows the lines between them, by induction on the rounds. -/
theorem carefulRows_eq (row : Int → Text → Text) {stop n : Int} {rounds : Nat}
    (hlines : lines.length ≤ greatest) (hleast : -2 ^ 63 ≤ n) (hstop : stop < greatest)
    (hrounds : (stop - n + 1).toNat < rounds) :
    carefulRows row lines stop rounds n =
      .ok ((shownLines lines n stop).flatMap fun p => row p.1 p.2) := by
  induction rounds generalizing n with
  | zero => exact absurd hrounds (Nat.not_lt_zero _)
  | succ rounds ih =>
    by_cases hend : stop < n
    · rw [carefulRows, if_pos hend, shownLines_of_lt hend]
      rfl
    · have hle : n ≤ stop := Int.not_lt.mp hend
      have hnext : word (n + 1) = n + 1 := word_of_fits (by omega) (by omega)
      rw [carefulRows, if_neg hend, carefulRow_eq row hlines hleast (by omega), hnext,
        ih (by omega) (by omega), shownLines_step hle, List.flatMap_append]
      rfl

/-- With the greatest number as the last one the walk starts again at the least and never ends. -/
theorem carefulRows_greatest (row : Int → Text → Text) (hlines : lines.length ≤ greatest) {n : Int}
    (hleast : -2 ^ 63 ≤ n) (hn : n ≤ greatest) (rounds : Nat) :
    carefulRows row lines greatest rounds n = .error .noRounds := by
  induction rounds generalizing n with
  | zero => rfl
  | succ rounds ih =>
    have hword : -2 ^ 63 ≤ word (n + 1) ∧ word (n + 1) ≤ greatest := by
      unfold word greatest
      omega
    rw [carefulRows, if_neg (by omega), carefulRow_eq row hlines hleast hn, ih hword.1 hword.2]
    rfl

/-! ## Below the rows -/

/-- There are enough rounds for the numbers from the first line to the last one. -/
theorem lt_of_roundsFor_le {rounds : Nat} (h : roundsFor i ≤ rounds) :
    (lastLine i - i.start.line + 1).toNat < rounds := by
  unfold roundsFor lastLine at *
  omega

/-- The last line is below the greatest number, also where it is not known. -/
theorem HasLineNumbers.lastLine_lt (h : HasLineNumbers i) : lastLine i < greatest := by
  have hstart := h.start
  have hstop := h.stop
  unfold lastLine
  omega

/-- An issue whose lines are covered lies within the text. -/
theorem bounds_of_isCovered (h : isCovered lines i = true) :
    0 < i.start.line ∧ i.start.line ≤ lastLine i ∧ lastLine i ≤ lines.length := by
  unfold isCovered isLineRange at h
  simp only [Bool.and_eq_true, decide_eq_true_eq] at h
  omega

/-- The line with a number between the first and the last one is there. -/
theorem itemAt_lineAt {n : Int} (hpos : 0 < n) (hle : n ≤ lines.length) (hn : n ≤ greatest) :
    itemAt lines (word (n - 1)) = .ok (lineAt lines n) := by
  have hindex : word (n - 1) = ((n - 1).toNat : Int) := by
    rw [word_of_fits (by omega) (by omega)]
    omega
  have hline : lines[(n - 1).toNat]? = some (lineAt lines n) := by
    have hlt : (n - 1).toNat < lines.length := by omega
    rw [lineAt, List.getElem?_eq_getElem hlt]
    rfl
  rw [hindex, itemAt_natCast hline]

/-- The underline is computed without a fault where the lines are covered. -/
theorem carefulTildes_eq (h : HasLineNumbers i) (hcovered : isCovered lines i = true)
    (indent : Text) :
    carefulTildes lines i indent =
      .ok (blanks (underline lines i.start.line (lastLine i) i.start.column (lastColumn i) indent).1,
        Text.repeated
          (underline lines i.start.line (lastLine i) i.start.column (lastColumn i) indent).2 0x7E) := by
  obtain ⟨hpos, hle, hlast⟩ := bounds_of_isCovered hcovered
  have hgreatest : lastLine i ≤ greatest := Int.le_of_lt h.lastLine_lt
  have hfirst : itemAt lines (word (i.start.line - 1)) = .ok (lineAt lines i.start.line) :=
    itemAt_lineAt hpos (by omega) (by omega)
  have hstop : itemAt lines (word (lastLine i - 1)) = .ok (lineAt lines (lastLine i)) :=
    itemAt_lineAt (by omega) hlast hgreatest
  unfold carefulTildes underline
  rw [hfirst, hstop]
  simp only [bind, Except.bind]
  generalize displayColumn (lineAt lines i.start.line) i.start.column = first
  generalize displayColumn (lineAt lines (lastLine i)) (lastColumn i) = last
  generalize displayColumn indent (indent.length + 1) = indentWidth
  -- what is subtracted in the numbers without a sign cannot go below zero either
  have hoffset : max ((first : Int) - indentWidth) 0 = ((first - indentWidth : Nat) : Int) := by
    omega
  have hlength (n : Int) : max n 1 = ((max n 1).toNat : Int) := by omega
  rw [hoffset, copies_natCast, hlength, copies_natCast]
  rfl

theorem carefulMessage_eq (colours : Bool) (h : HasLineNumbers i) :
    carefulMessage colours lines i (blanks (numberWidth (lastLine i) + 1)) (droppedIndent lines i) =
      .ok (messageRows colours i (tildes lines i)) := by
  unfold carefulMessage messageRows tildes
  by_cases hcovered : isCovered lines i = true
  · rw [if_pos hcovered, if_pos hcovered, carefulTildes_eq h hcovered]
    rfl
  · rw [if_neg hcovered, if_neg hcovered]
    rfl

theorem carefulNotes_eq (line : Text → Text) (done parts : List Text) :
    carefulNotes line (done ++ List.replicate parts.length []) done.length parts =
      .ok (done ++ parts.map line) := by
  induction parts generalizing done with
  | nil => simp [carefulNotes]
  | cons part parts ih =>
    have hput : putAt (done ++ List.replicate (parts.length + 1) []) done.length (line part) =
        .ok ((done ++ [line part]) ++ List.replicate parts.length []) := by
      unfold putAt
      rw [if_pos (by simp)]
      simp [List.replicate_succ]
    have hrest := ih (done ++ [line part])
    rw [List.length_append, List.length_singleton] at hrest
    rw [List.length_cons, carefulNotes, hput]
    simpa [bind, Except.bind] using hrest

theorem carefulNote_eq (colours : Bool) (i : Issue) :
    carefulNote colours i (blanks (numberWidth (lastLine i) + 1)) = .ok (noteRows colours i) := by
  unfold carefulNote noteRows
  by_cases hempty : i.note.isEmpty = true
  · rw [if_pos hempty, if_pos hempty]
  · have hnotes := carefulNotes_eq
      (fun part => Mark.line.paint colours
          (blanks (numberWidth (lastLine i) + 1) ++ utf8 "= ") ++
        Mark.note.paint colours "note: " ++ part) [] (Text.splitOn noteSeparator i.note)
    rw [List.nil_append, List.nil_append, List.length_nil] at hnotes
    rw [if_neg hempty, if_neg hempty, hnotes]
    rfl

/-! ## The whole report -/

theorem carefulDroppedIndent_eq (h : HasLineNumbers i) :
    carefulDroppedIndent lines i = .ok (droppedIndent lines i) := by
  unfold carefulDroppedIndent droppedIndent
  by_cases hcovered : isCovered lines i = true
  · obtain ⟨hpos, hle, hlast⟩ := bounds_of_isCovered hcovered
    have hlt := h.lastLine_lt
    have hcut : cutOut lines (word (i.start.line - 1)) (lastLine i) =
        .ok ((shownLines lines i.start.line (lastLine i)).map (·.2)) := by
      rw [word_of_fits (by omega) (by omega), map_shownLines hpos]
      exact if_pos (by omega)
    rw [if_pos hcovered, if_pos hcovered, hcut]
    exact carefulIndent_none _
  · rw [if_neg hcovered, if_neg hcovered]

/-- The careful printer gets through, in as many rounds as there are line numbers and one more. -/
theorem carefulIssue_eq (colours : Bool) (hlines : lines.length ≤ greatest) (h : HasLineNumbers i)
    {rounds : Nat} (hrounds : roundsFor i ≤ rounds) :
    carefulIssue rounds colours lines i = .ok (issue colours lines i) := by
  have hgutter : copies ((numberWidth (lastLine i) : Int) + 1) 0x20 =
      .ok (blanks (numberWidth (lastLine i) + 1)) := copies_natCast (numberWidth (lastLine i) + 1) _
  have hpadding : copies (numberWidth (lastLine i)) 0x20 = .ok (blanks (numberWidth (lastLine i))) :=
    copies_natCast _ _
  have hrows := carefulRows_eq
    (fun n line => row colours (numberWidth (lastLine i)) (droppedIndent lines i) (n.toNat, line))
    hlines h.least h.lastLine_lt (lt_of_roundsFor_le hrounds)
  unfold carefulIssue
  rw [carefulDroppedIndent_eq h]
  simp only [bind, Except.bind, hgutter, hpadding, hrows, carefulMessage_eq colours h,
    carefulNote_eq]
  rw [issue_eq, closing]
  rfl

/-- What a report shows of the source: its lines from the first to the last of the issue, as far as
they are there, each once and in their order. -/
def ShowsLines (colours : Bool) (lines : List Text) (i : Issue) (report : Text) : Prop :=
  ∃ rows, AreLinesOf lines i.start.line (lastLine i) rows ∧
    report = opening colours i ++
      rows.flatMap (row colours (numberWidth (lastLine i)) (droppedIndent lines i)) ++
      closing colours i (tildes lines i)

/-- Whatever the line numbers and columns of some issues are, as long as the line numbers are below the
greatest one, the careful printer comes to the end with every access, cut and count in order. The
reports show the lines of the source that there are, and no others. -/
theorem carefulIssues_eq (colours : Bool) {lines : List Text} {is : List Issue}
    (hlines : lines.length ≤ greatest) (his : ∀ i ∈ is, HasLineNumbers i) :
    (∀ rounds, (∀ i ∈ is, roundsFor i ≤ rounds) →
      carefulIssues rounds colours lines is = .ok (issues colours lines is)) ∧
    ∃ reports, issues colours lines is = reports.flatten ∧
      List.Forall₂ (ShowsLines colours lines) is reports := by
  constructor
  · intro rounds hrounds
    induction is with
    | nil => rfl
    | cons i is ih =>
      obtain ⟨hi, his⟩ := List.forall_mem_cons.mp his
      obtain ⟨hfirst, hrest⟩ := List.forall_mem_cons.mp hrounds
      rw [carefulIssues, carefulIssue_eq colours hlines hi hfirst, ih his hrest]
      rfl
  · refine ⟨is.map (issue colours lines), List.flatMap_def, ?_⟩
    rw [List.forall₂_map_right_iff]
    refine List.forall₂_same.mpr fun i _ => ⟨_, areLinesOf_shownLines lines _ _, ?_⟩
    exact issue_eq colours lines i

/-- Two issues with line numbers of a source that has changed: one from before the first line to
behind the last one, and one that ends before it starts. -/
def staleIssues : List Issue :=
  [⟨"totality-check", "totality", "d.go", "Match not exhaustive", "A not matched (d.go:7)",
      ⟨"d.go", 0, -1, 0⟩, ⟨"d.go", 0, 4, 9⟩, .error⟩,
    ⟨"totality-check", "totality", "d.go", "Match not exhaustive", [], ⟨"d.go", 0, 2, 3⟩,
      ⟨"d.go", 0, 1, -5⟩, .warning⟩]

theorem staleIssues_haveLineNumbers : ∀ i ∈ staleIssues, HasLineNumbers i := by
  have hdecide : ∀ i ∈ staleIssues, -2 ^ 63 ≤ i.start.line ∧ i.start.line < greatest ∧
    i.stop.line < greatest := by decide
  intro i hi
  obtain ⟨hleast, hstart, hstop⟩ := hdecide i hi
  exact ⟨hleast, hstart, hstop⟩

/-- They are reported for a source of two lines, the second of which is no valid text. -/
theorem carefulIssues_staleIssues :
    (([utf8 "package d", [0x09, 0xFF]] : List Text).length : Int) ≤ greatest ∧
      (∀ i ∈ staleIssues, HasLineNumbers i) ∧ (∀ i ∈ staleIssues, roundsFor i ≤ 7) ∧
      carefulIssues 7 false [utf8 "package d", [0x09, 0xFF]] staleIssues =
        .ok (issues false [utf8 "package d", [0x09, 0xFF]] staleIssues) ∧
      ∃ reports, issues false [utf8 "package d", [0x09, 0xFF]] staleIssues = reports.flatten ∧
        List.Forall₂ (ShowsLines false [utf8 "package d", [0x09, 0xFF]]) staleIssues reports := by
  have hlines : (([utf8 "package d", [0x09, 0xFF]] : List Text).length : Int) ≤ greatest := by
    decide
  have hrounds : ∀ i ∈ staleIssues, roundsFor i ≤ 7 := by decide
  obtain ⟨hdone, hshown⟩ := carefulIssues_eq false hlines staleIssues_haveLineNumbers
  exact ⟨hlines, staleIssues_haveLineNumbers, hrounds, hdone 7 hrounds, hshown⟩

end CaseCover.Report
