import CaseCover.Engine
import CaseCover.Proofs.Coverage.ChainMeaning
import Mathlib.Data.List.Find

/-!
# Suppression and line directives

Which lines a suppression comment covers is found by looking at the places of a few landmarks of its
file: the package clause and the end of the file, the suppression comments, and where statements and
functions start and end. Of these places only so much matters: which of them are in one file,
whether one line comes before another or is the next one, and that lines count from 1
(`KeepsLines`). So two ways to report places that agree on this suppress the same issues
(`suppresses_eq_of_keepsLines`).

Line directives may change each of these, and with them what is suppressed.
-/

namespace CaseCover

/-! ## Landmarks -/

/-- The functions among declarations. -/
def Decl.functions : List Decl → List FuncDecl
  | [] => []
  | .func f :: decls => f :: functions decls
  | .group .. :: decls => functions decls

/-- The suppression comments of a file. -/
def SourceFile.suppressors (f : SourceFile) : List Comment :=
  f.comments.filter fun c => (Suppression.rulesOf? c.text).isSome

/-- The positions in a file whose places suppression looks at. -/
def SourceFile.landmarks (f : SourceFile) : List Pos :=
  f.package :: f.stop ::
    (f.suppressors.map (·.pos) ++ f.statements.flatMap (fun s => [s.pos, s.stop]) ++
      (Decl.functions f.decls).flatMap fun fn => [fn.pos, fn.stop])

namespace SourceFile

theorem package_mem_landmarks (f : SourceFile) : f.package ∈ f.landmarks := List.mem_cons_self

theorem stop_mem_landmarks (f : SourceFile) : f.stop ∈ f.landmarks :=
  List.mem_cons_of_mem _ List.mem_cons_self

theorem comment_mem_landmarks {f : SourceFile} {c : Comment} (h : c ∈ f.suppressors) :
    c.pos ∈ f.landmarks := by
  simp only [landmarks, List.mem_cons, List.mem_append, List.mem_map]
  exact .inr (.inr (.inl (.inl ⟨c, h, rfl⟩)))

theorem stmt_mem_landmarks {f : SourceFile} {s : Stmt} (h : s ∈ f.statements) :
    s.pos ∈ f.landmarks ∧ s.stop ∈ f.landmarks := by
  simp only [landmarks, List.mem_cons, List.mem_append, List.mem_flatMap]
  exact ⟨.inr (.inr (.inl (.inr ⟨s, h, .inl rfl⟩))),
    .inr (.inr (.inl (.inr ⟨s, h, .inr (.inl rfl)⟩)))⟩

theorem function_mem_landmarks {f : SourceFile} {fn : FuncDecl} (h : fn ∈ Decl.functions f.decls) :
    fn.pos ∈ f.landmarks ∧ fn.stop ∈ f.landmarks := by
  simp only [landmarks, List.mem_cons, List.mem_append, List.mem_flatMap]
  exact ⟨.inr (.inr (.inr ⟨fn, h, .inl rfl⟩)), .inr (.inr (.inr ⟨fn, h, .inr (.inl rfl)⟩))⟩

end SourceFile

/-! ## Ways to report places -/

/-- Two places are in one file if two others are, and if so, their lines are in the same order, and
the second line is the next one after the first in both cases or in none. -/
def Place.Alike (a b a' b' : Place) : Prop :=
  (a.filename = b.filename ↔ a'.filename = b'.filename) ∧
    (a.filename = b.filename →
      (a.line < b.line ↔ a'.line < b'.line) ∧ (b.line = a.line + 1 ↔ b'.line = a'.line + 1))

instance (a b a' b' : Place) : Decidable (Place.Alike a b a' b') :=
  inferInstanceAs (Decidable (_ ∧ _))

namespace Suppression

/-- Two ways to report places agree on the landmarks of files. Those of one file are in one file,
any two of them are alike, and the lines that count from 1 are the same. -/
structure KeepsLines (place place' : Pos → Place) (files : List SourceFile) : Prop where
  whole : ∀ f ∈ files, ∀ p ∈ f.landmarks, (place p).filename = (place f.package).filename
  alike : ∀ f ∈ files, ∀ p ∈ f.landmarks, ∀ g ∈ files, ∀ q ∈ g.landmarks,
    Place.Alike (place p) (place q) (place' p) (place' q)
  first : ∀ f ∈ files, ∀ p ∈ f.landmarks, 1 ≤ (place p).line ↔ 1 ≤ (place' p).line

instance (place place' : Pos → Place) (files : List SourceFile) :
    Decidable (KeepsLines place place' files) :=
  decidable_of_iff
    ((∀ f ∈ files, ∀ p ∈ f.landmarks, (place p).filename = (place f.package).filename) ∧
      (∀ f ∈ files, ∀ p ∈ f.landmarks, ∀ g ∈ files, ∀ q ∈ g.landmarks,
        Place.Alike (place p) (place q) (place' p) (place' q)) ∧
      ∀ f ∈ files, ∀ p ∈ f.landmarks, 1 ≤ (place p).line ↔ 1 ≤ (place' p).line)
    ⟨fun ⟨hwhole, halike, hfirst⟩ => ⟨hwhole, halike, hfirst⟩,
      fun h => ⟨h.whole, h.alike, h.first⟩⟩

/-! ## Where a range ends -/

/-- The statement that a comment belongs to: the one it stands behind, or the one on the next
line. -/
def stmtOf? (place : Pos → Place) (f : SourceFile) (c : Comment) : Option Stmt :=
  ((stmtOnLine? place f.statements (place c.pos).line).filter fun s => s.pos < c.pos).or
    (stmtOnLine? place f.statements ((place c.pos).line + 1))

/-- Where the range of a comment ends that is not about the whole file. -/
def lastOf (place : Pos → Place) (f : SourceFile) (c : Comment) : Pos :=
  match stmtOf? place f c with
  | some s => s.stop
  | none =>
    match funcOnLine? place f.decls ((place c.pos).line + 1) with
    | some fn => fn.stop
    | none => c.pos

/-- The range of a comment: the whole file, or from its line to the line where it ends. -/
theorem extent_eq (place : Pos → Place) (f : SourceFile) (c : Comment) :
    extent place f f.statements c =
      if (place c.pos).line < (place f.package).line then (1, (place f.stop).line)
      else ((place c.pos).line, (place (lastOf place f c)).line) := by
  have hextent : extent place f f.statements c =
      if (place c.pos).line < (place f.package).line then (1, (place f.stop).line)
      else
        match stmtOf? place f c with
        | some s => ((place c.pos).line, (place s.stop).line)
        | none =>
          match funcOnLine? place f.decls ((place c.pos).line + 1) with
          | some fn => ((place c.pos).line, (place fn.stop).line)
          | none => ((place c.pos).line, (place c.pos).line) := rfl
  rw [hextent, lastOf]
  cases stmtOf? place f c with
  | some s => rfl
  | none => cases funcOnLine? place f.decls ((place c.pos).line + 1) <;> rfl

theorem funcOnLine?_eq (place : Pos → Place) (decls : List Decl) (line : Int) :
    funcOnLine? place decls line =
      (Decl.functions decls).find? fun fn => (place fn.pos).line == line := by
  induction decls with
  | nil => rfl
  | cons d decls ih =>
    cases d with
    | group pos kind specs close => exact ih
    | func f =>
      rw [Decl.functions, List.find?_cons, ← ih]
      simp only [funcOnLine?, List.findSome?_cons]
      cases (place f.pos).line == line <;> rfl

/-- The range of a comment ends at a landmark. -/
theorem lastOf_mem_landmarks (place : Pos → Place) {f : SourceFile} {c : Comment}
    (hc : c ∈ f.suppressors) : lastOf place f c ∈ f.landmarks := by
  unfold lastOf
  split
  · next s hs =>
    refine (SourceFile.stmt_mem_landmarks ?_).2
    rcases Option.or_eq_some_iff.mp hs with hs | ⟨-, hs⟩
    · exact List.mem_of_find?_eq_some (Option.eq_some_of_filter_eq_some hs)
    · exact List.mem_of_find?_eq_some hs
  · split
    · next fn hfn =>
      rw [funcOnLine?_eq] at hfn
      exact (SourceFile.function_mem_landmarks (List.mem_of_find?_eq_some hfn)).2
    · exact SourceFile.comment_mem_landmarks hc

/-! ## Ranges for two ways to report places -/

section Agree

variable {place place' : Pos → Place} {files : List SourceFile} (h : KeepsLines place place' files)
  {f g : SourceFile} (hf : f ∈ files) (hg : g ∈ files) {p q : Pos}
include h hf hg

/-- Which of two landmarks in one file is on an earlier line is the same for both ways. -/
theorem KeepsLines.line_lt_iff (hp : p ∈ f.landmarks) (hq : q ∈ g.landmarks)
    (hfile : (place p).filename = (place q).filename) :
    (place p).line < (place q).line ↔ (place' p).line < (place' q).line :=
  ((h.alike f hf p hp g hg q hq).2 hfile).1

theorem KeepsLines.line_le_iff (hp : p ∈ f.landmarks) (hq : q ∈ g.landmarks)
    (hfile : (place p).filename = (place q).filename) :
    (place p).line ≤ (place q).line ↔ (place' p).line ≤ (place' q).line := by
  have hlt := h.line_lt_iff hg hf hq hp hfile.symm
  omega

theorem KeepsLines.line_eq_iff (hp : p ∈ f.landmarks) (hq : q ∈ g.landmarks)
    (hfile : (place p).filename = (place q).filename) :
    (place p).line = (place q).line ↔ (place' p).line = (place' q).line := by
  have hle := h.line_le_iff hf hg hp hq hfile
  have hge := h.line_le_iff hg hf hq hp hfile.symm
  omega

theorem KeepsLines.line_next_iff (hp : p ∈ f.landmarks) (hq : q ∈ g.landmarks)
    (hfile : (place p).filename = (place q).filename) :
    (place q).line = (place p).line + 1 ↔ (place' q).line = (place' p).line + 1 :=
  ((h.alike f hf p hp g hg q hq).2 hfile).2

omit hg in
theorem KeepsLines.same_file (hp : p ∈ f.landmarks) (hq : q ∈ f.landmarks) :
    (place p).filename = (place q).filename :=
  (h.whole f hf p hp).trans (h.whole f hf q hq).symm

omit hg in
/-- The same statement comes first on the line of a comment. -/
theorem stmtOnLine?_congr {c : Comment} (hc : c ∈ f.suppressors) :
    stmtOnLine? place f.statements (place c.pos).line =
      stmtOnLine? place' f.statements (place' c.pos).line := by
  have hmark := SourceFile.comment_mem_landmarks hc
  refine List.find?_congr fun s hs => ?_
  have hs := (SourceFile.stmt_mem_landmarks hs).1
  rw [Bool.eq_iff_iff, beq_iff_eq, beq_iff_eq]
  exact h.line_eq_iff hf hf hs hmark (h.same_file hf hs hmark)

omit hg in
theorem stmtOnLine?_next_congr {c : Comment} (hc : c ∈ f.suppressors) :
    stmtOnLine? place f.statements ((place c.pos).line + 1) =
      stmtOnLine? place' f.statements ((place' c.pos).line + 1) := by
  have hmark := SourceFile.comment_mem_landmarks hc
  refine List.find?_congr fun s hs => ?_
  have hs := (SourceFile.stmt_mem_landmarks hs).1
  rw [Bool.eq_iff_iff, beq_iff_eq, beq_iff_eq]
  exact h.line_next_iff hf hf hmark hs (h.same_file hf hmark hs)

omit hg in
theorem funcOnLine?_next_congr {c : Comment} (hc : c ∈ f.suppressors) :
    funcOnLine? place f.decls ((place c.pos).line + 1) =
      funcOnLine? place' f.decls ((place' c.pos).line + 1) := by
  have hmark := SourceFile.comment_mem_landmarks hc
  rw [funcOnLine?_eq, funcOnLine?_eq]
  refine List.find?_congr fun fn hfn => ?_
  have hfn := (SourceFile.function_mem_landmarks hfn).1
  rw [Bool.eq_iff_iff, beq_iff_eq, beq_iff_eq]
  exact h.line_next_iff hf hf hmark hfn (h.same_file hf hmark hfn)

omit hg in
/-- The range of a comment ends at the same position. -/
theorem lastOf_congr {c : Comment} (hc : c ∈ f.suppressors) :
    lastOf place f c = lastOf place' f c := by
  unfold lastOf stmtOf?
  rw [stmtOnLine?_congr h hf hc, stmtOnLine?_next_congr h hf hc, funcOnLine?_next_congr h hf hc]

/-- A comment covers the line of a landmark in both cases or in none. -/
theorem extent_covers_iff {c : Comment} (hc : c ∈ f.suppressors) (hp : p ∈ g.landmarks)
    (hfile : (place f.package).filename = (place p).filename) :
    (extent place f f.statements c).1 ≤ (place p).line ∧
        (place p).line ≤ (extent place f f.statements c).2 ↔
      (extent place' f f.statements c).1 ≤ (place' p).line ∧
        (place' p).line ≤ (extent place' f f.statements c).2 := by
  have hmark := SourceFile.comment_mem_landmarks hc
  have hin {q : Pos} (hq : q ∈ f.landmarks) : (place q).filename = (place p).filename :=
    (h.whole f hf q hq).trans hfile
  have hpackage := h.line_lt_iff hf hf hmark f.package_mem_landmarks
    (h.same_file hf hmark f.package_mem_landmarks)
  -- The comment is on the same side of the package clause, and its range ends at the same position.
  rw [extent_eq, extent_eq, ← lastOf_congr h hf hc]
  by_cases hbefore : (place c.pos).line < (place f.package).line
  · rw [if_pos hbefore, if_pos (hpackage.mp hbefore)]
    exact and_congr (h.first g hg p hp)
      (h.line_le_iff hg hf hp f.stop_mem_landmarks (hin f.stop_mem_landmarks).symm)
  · have hlast := lastOf_mem_landmarks place hc
    rw [if_neg hbefore, if_neg fun hbefore' => hbefore (hpackage.mpr hbefore')]
    exact and_congr (h.line_le_iff hf hg hmark hp (hin hmark))
      (h.line_le_iff hg hf hp hlast (hin hlast).symm)

end Agree

/-! ## What is suppressed -/

/-- Ranges are filed under the name where the package clause is, one for each comment that
suppresses. -/
theorem mem_rangesIn_ofFiles {place : Pos → Place} {files : List SourceFile} {name : Text}
    {r : SuppressedRange} :
    r ∈ (ofFiles place files).rangesIn name ↔
      ∃ f ∈ files, (place f.package).filename = name ∧
        ∃ c ∈ f.comments, ∃ rules, rulesOf? c.text = some rules ∧
          r = ⟨rules, (extent place f f.statements c).1, (extent place f f.statements c).2⟩ := by
  simp only [rangesIn, ofFiles, ofFile, List.mem_filterMap, List.mem_flatMap,
    Option.map_eq_some_iff]
  constructor
  · rintro ⟨_, ⟨f, hf, c, hc, rules, hrules, rfl⟩, hname⟩
    split at hname
    · next heq =>
      cases hname
      exact ⟨f, hf, beq_iff_eq.mp heq, c, hc, rules, hrules, rfl⟩
    · cases hname
  · rintro ⟨f, hf, rfl, c, hc, rules, hrules, rfl⟩
    exact ⟨_, ⟨f, hf, c, hc, rules, hrules, rfl⟩, if_pos (beq_self_eq_true _)⟩

/-- A comment of a file with the same name covers the line, for all rules or for this one. -/
theorem suppresses_iff {place : Pos → Place} {files : List SourceFile} {p : Place} {rule : Text} :
    (ofFiles place files).suppresses p rule = true ↔
      ∃ f ∈ files, (place f.package).filename = p.filename ∧
        ∃ c ∈ f.comments, ∃ rules, rulesOf? c.text = some rules ∧ (rules = [] ∨ rule ∈ rules) ∧
          (extent place f f.statements c).1 ≤ p.line ∧
            p.line ≤ (extent place f f.statements c).2 := by
  rw [suppresses, List.any_eq_true]
  simp only [mem_rangesIn_ofFiles, SuppressedRange.covers, Bool.and_eq_true, Bool.or_eq_true,
    decide_eq_true_eq, List.isEmpty_iff, List.contains_iff_mem]
  constructor
  · rintro ⟨_, ⟨f, hf, hname, c, hc, rules, hrules, rfl⟩, hlines, hrule⟩
    exact ⟨f, hf, hname, c, hc, rules, hrules, hrule, hlines⟩
  · rintro ⟨f, hf, hname, c, hc, rules, hrules, hrule, hlines⟩
    exact ⟨_, ⟨f, hf, hname, c, hc, rules, hrules, rfl⟩, hlines, hrule⟩

/-- Two ways to report places that agree on the landmarks suppress issues at the same landmarks. -/
theorem suppresses_eq_of_keepsLines {place place' : Pos → Place} {files : List SourceFile}
    (h : KeepsLines place place' files) {g : SourceFile} (hg : g ∈ files) {p : Pos}
    (hp : p ∈ g.landmarks) (rule : Text) :
    (ofFiles place files).suppresses (place p) rule =
      (ofFiles place' files).suppresses (place' p) rule := by
  rw [Bool.eq_iff_iff, suppresses_iff, suppresses_iff]
  refine exists_congr fun f => and_congr_right fun hf => ?_
  -- Ranges are kept under the name of the file of the package clause.
  have hfile := (h.alike f hf f.package f.package_mem_landmarks g hg p hp).1
  rw [← hfile]
  refine and_congr_right fun hsame => exists_congr fun c => and_congr_right fun hc => ?_
  refine exists_congr fun rules => and_congr_right fun hrules => and_congr_right fun _ => ?_
  have hc : c ∈ f.suppressors := List.mem_filter.mpr ⟨hc, by rw [hrules]; rfl⟩
  exact extent_covers_iff h hf hg hc hp hsame

end Suppression

/-! ## Findings -/

namespace Analysis

variable {o : Shapes} {opts : Options} {d : Diagnostic}

/-- What is said about a statement is said at its start. -/
theorem pos_of_judge {covered : List Nat} {n : Nat} {s : Stmt}
    (h : (judge o opts covered n s).1 = some d) : d.pos = s.pos := by
  have hpos {m : Match} (hm : (Finding.ofMatch? s m).map diagnostic = some d) : d.pos = s.pos := by
    obtain ⟨f, hf, rfl⟩ := Option.map_eq_some_iff.mp hm
    rw [diagnostic, Finding.node_of_ofMatch? hf]
  unfold judge at h
  split at h
  · split at h
    · obtain ⟨f, hf, hd⟩ := Option.map_eq_some_iff.mp h
      obtain ⟨m, -, hm⟩ := Option.bind_eq_some_iff.mp hf
      exact hpos (Option.map_eq_some_iff.mpr ⟨f, hm, hd⟩)
    · cases h
  · split at h
    · cases h
    · split at h
      · exact hpos h
      · cases h
  · cases h

/-- Every finding is at the start of a statement. -/
theorem exists_stmt_of_mem_verdictsFrom {covered : List Nat} {n : Nat} {ss : List Stmt}
    (h : some d ∈ verdictsFrom o opts covered n ss) : ∃ s ∈ ss, d.pos = s.pos := by
  induction ss generalizing covered n with
  | nil => cases h
  | cons s ss ih =>
    rcases List.mem_cons.mp h with h | h
    · exact ⟨s, List.mem_cons_self, pos_of_judge h.symm⟩
    · obtain ⟨s', hs', hpos⟩ := ih h
      exact ⟨s', List.mem_cons_of_mem _ hs', hpos⟩

/-- So findings are at landmarks. -/
theorem pos_mem_landmarks {files : List SourceFile} (h : d ∈ diagnostics o opts files) :
    ∃ f ∈ files, d.pos ∈ f.landmarks := by
  obtain ⟨v, hv, rfl⟩ := List.mem_filterMap.mp h
  obtain ⟨s, hs, hpos⟩ := exists_stmt_of_mem_verdictsFrom hv
  obtain ⟨f, hf, hs⟩ := List.mem_flatMap.mp hs
  exact ⟨f, hf, by rw [hpos]; exact (SourceFile.stmt_mem_landmarks hs).1⟩

end Analysis

namespace Suppression

/-- Line directives that keep the lines of landmarks do not change which findings are suppressed. -/
theorem suppresses_regardless_of_marks (s : FileSet) (files : List SourceFile)
    (h : KeepsLines s.place s.withoutMarks.place files) (o : Shapes) (opts : Options)
    (d : Diagnostic) (hd : d ∈ Analysis.diagnostics o opts files) (r : Rule) :
    (ofFiles s.place files).suppresses (Engine.issueOf s.place r d).start
        (Engine.issueOf s.place r d).rule =
      (ofFiles s.withoutMarks.place files).suppresses
        (Engine.issueOf s.withoutMarks.place r d).start
        (Engine.issueOf s.withoutMarks.place r d).rule := by
  obtain ⟨f, hf, hpos⟩ := Analysis.pos_mem_landmarks hd
  exact suppresses_eq_of_keepsLines h hf hpos r.name

/-! ## Sources -/

/-- A source held in memory, read and checked. -/
def checked? (source : Text) : Option (SourceFile × FileSet × Checked) := do
  let (f, s) ← (SourceFile.parse FileSet.empty Engine.sourceName source).toOption
  let c ← (World.initial.check f.name.name none [f]).toOption
  return (f, s, c)

/-- A finding in a file is suppressed if its places are reported in a given way. -/
def hides (place : Pos → Place) (f : SourceFile) (d : Diagnostic) : Bool :=
  let i := Engine.issueOf place (Engine.ruleOf Rule.totality RuleConfig.empty) d
  (ofFiles place [f]).suppresses i.start i.rule

/-- A line directive that goes ahead, before a function with a suppressed construct. -/
def jumpAhead : Text :=
  "package p;type E int;const A E=0\n//line source.go:100\nfunc f(e E)\x7b\n//nolint\n" ++
    "switch e\x7b\x7d\x7d"

/-- The construct is on line 5, reported on line 102, and suppressed on both. -/
theorem suppresses_regardless_of_marks_jumpAhead :
    ∃ f s c d, checked? jumpAhead = some (f, s, c) ∧
      d ∈ Analysis.diagnostics c.shapes Options.default [f] ∧
      KeepsLines s.place s.withoutMarks.place [f] ∧
      (s.withoutMarks.place d.pos).line = 5 ∧ (s.place d.pos).line = 102 ∧
      hides s.withoutMarks.place f d = true ∧ hides s.place f d = true := by
  have hrun : (checked? jumpAhead).map (fun (f, s, c) =>
      (decide (KeepsLines s.place s.withoutMarks.place [f]),
        (Analysis.diagnostics c.shapes Options.default [f]).map fun d =>
          ((s.withoutMarks.place d.pos).line, (s.place d.pos).line,
            hides s.withoutMarks.place f d))) = some (true, [(5, 102, true)]) := by
    decide +kernel
  obtain ⟨⟨f, s, c⟩, hchecked, heq⟩ := Option.map_eq_some_iff.mp hrun
  obtain ⟨hkeeps, hfound⟩ := Prod.mk.inj heq
  obtain ⟨d, hd, hat⟩ := List.map_eq_singleton_iff.mp hfound
  simp only [Prod.mk.injEq] at hat
  obtain ⟨hline, hreported, hhidden⟩ := hat
  have hkeeps := of_decide_eq_true hkeeps
  have hd : d ∈ Analysis.diagnostics c.shapes Options.default [f] := hd ▸ List.mem_singleton_self d
  refine ⟨f, s, c, d, hchecked, hd, hkeeps, hline, hreported, hhidden, ?_⟩
  exact (suppresses_regardless_of_marks s [f] hkeeps c.shapes Options.default d hd _).trans hhidden

/-- For each finding of a source: it is suppressed where it is reported, and where it is. -/
def verdicts? (source : Text) : Option (List (Bool × Bool)) :=
  (checked? source).map fun (f, s, c) =>
    (Analysis.diagnostics c.shapes Options.default [f]).map fun d =>
      (hides s.place f d, hides s.withoutMarks.place f d)

/-- A line directive takes a comment to a line before the package clause. -/
def jumpBack : Text :=
  "\npackage p;type E int;const A E=0\n//line source.go:1\n//nolint\nvar x int\n" ++
    "func f(e E)\x7bswitch e\x7b\x7d\x7d"

/-- A line directive takes a comment to another file, with the construct on the next line. -/
def jumpAway : Text :=
  "package p;type E int;const A E=0;func f(e E)\x7b\n//line b.go:9\n//nolint\nswitch e\x7b\x7d\x7d"

/-- A line directive between a comment and the construct on the next line. -/
def jumpBetween : Text :=
  "package p;type E int;const A E=0;func f(e E)\x7b\n//nolint\n" ++
    "/*line source.go:9*/switch e\x7b\x7d\x7d"

/-- A comment behind the package clause suppresses a finding that it does not belong to, and
comments on the line before a construct do not suppress it. -/
theorem suppresses_otherwise_after_jumps :
    verdicts? jumpBack = some [(true, false)] ∧
    verdicts? jumpAway = some [(false, true)] ∧
    verdicts? jumpBetween = some [(false, true)] := by
  refine ⟨?_, ?_, ?_⟩ <;> decide +kernel

end Suppression

end CaseCover
