import CaseCover.Proofs.Source.ReadFile
import CaseCover.Proofs.Suppression.Rules

/-!
# What a suppression comment reaches

The range of a comment is found from the first statement in depth-first order that starts on a line.
In a file that is laid out as it was read, this is the leftmost and outermost statement there
(`Leads`), since everything else that starts on the line is inside it or comes after it.

A comment that no statement starts before on its line reaches to the end of the construct that
starts on the next line (`Reaches`). Behind the start of a statement, a comment reaches what is
inside the leading statement of its line (`BelongsTo`), and what follows this one on its last line
(`Overruns`), as ranges are of lines.
-/

namespace CaseCover

theorem SourceFile.isAbsent_of_mem {f : SourceFile} {s : Stmt} (h : s ∈ f.statements) :
    s.isAbsent = false :=
  ((@SourcePart.mem_statements_iff (.file f) s).mp h).2

namespace Suppression

/-! ## What starts on a line -/

/-- The leftmost and outermost statement of those that start on a line. -/
structure Leads (place : Pos → Place) (ss : List Stmt) (line : Int) (s : Stmt) : Prop where
  mem : s ∈ ss
  starts : (place s.pos).line = line
  leftmost : ∀ t ∈ ss, (place t.pos).line = line → s.pos ≤ t.pos
  outermost : ∀ t ∈ ss, (place t.pos).line = line → t ∈ s.statements ∨ s.Precedes t

/-- The leftmost function of those that start on a line. -/
structure LeadsFunctions (place : Pos → Place) (fns : List FuncDecl) (line : Int) (fn : FuncDecl) :
    Prop where
  mem : fn ∈ fns
  starts : (place fn.pos).line = line
  leftmost : ∀ g ∈ fns, (place g.pos).line = line → fn.pos ≤ g.pos

/-- A construct that starts on a line ends at a position: a statement, or a function on a line
without statements. -/
inductive StartsOn (place : Pos → Place) (f : SourceFile) (line : Int) : Pos → Prop where
  | statement {s : Stmt} (h : Leads place f.statements line s) : StartsOn place f line s.stop
  | function {fn : FuncDecl} (hnone : ∀ s ∈ f.statements, (place s.pos).line ≠ line)
    (h : LeadsFunctions place (Decl.functions f.decls) line fn) : StartsOn place f line fn.stop

/-- The last line that a comment on a line reaches: that of the construct on the next line, or its
own where no construct starts. -/
inductive Reaches (place : Pos → Place) (f : SourceFile) (line : Int) : Int → Prop where
  | construct {stop : Pos} (h : StartsOn place f (line + 1) stop) :
    Reaches place f line (place stop).line
  | nothing (h : ∀ stop, ¬ StartsOn place f (line + 1) stop) : Reaches place f line line

/-- A statement starts before a comment, on the line of the comment. -/
def StartsBefore (place : Pos → Place) (c : Comment) (s : Stmt) : Prop :=
  (place s.pos).line = (place c.pos).line ∧ s.pos < c.pos

instance (place : Pos → Place) (c : Comment) (s : Stmt) : Decidable (StartsBefore place c s) :=
  inferInstanceAs (Decidable (_ ∧ _))

/-- A comment suppresses a rule: it names it, or it is for all rules. -/
def Names (c : Comment) (rule : Text) : Prop :=
  ∃ rules, rulesOf? c.text = some rules ∧ (rules = [] ∨ rule ∈ rules)

section

variable {place : Pos → Place} {f : SourceFile} {c : Comment} {lo hi : Pos} {line : Int}

/-- A comment suppresses the rules it names within its range. -/
theorem alone_suppresses_iff_names {p : Place} {r : Text} :
    (alone place f c).suppresses p r = true ↔ Names c r ∧ InRange place f c p := by
  rw [alone_suppresses_iff]
  constructor
  · rintro ⟨rules, hrules, hrule, hrange⟩
    exact ⟨⟨rules, hrules, hrule⟩, hrange⟩
  · rintro ⟨⟨rules, hrules, hrule⟩, hrange⟩
    exact ⟨rules, hrules, hrule, hrange⟩

/-- The range of a comment behind the package clause: from its line to the last one of its
construct, in the same file. -/
theorem inRange_iff {p : Place} (hc : (place f.package).line ≤ (place c.pos).line) :
    InRange place f c p ↔ (place f.package).filename = p.filename ∧
      (place c.pos).line ≤ p.line ∧ p.line ≤ (place (lastOf place f c)).line := by
  rw [InRange, extent_eq, if_neg (Int.not_lt.mpr hc)]

theorem stmtOnLine?_eq_none_iff {ss : List Stmt} :
    stmtOnLine? place ss line = none ↔ ∀ s ∈ ss, (place s.pos).line ≠ line := by
  simp [stmtOnLine?]

theorem funcOnLine?_eq_none_iff :
    funcOnLine? place f.decls line = none ↔
      ∀ fn ∈ Decl.functions f.decls, (place fn.pos).line ≠ line := by
  simp [funcOnLine?_eq]

theorem line_of_stmtOnLine? {ss : List Stmt} {s : Stmt} (hs : stmtOnLine? place ss line = some s) :
    (place s.pos).line = line := by
  have hline := List.find?_some hs
  exact beq_iff_eq.mp hline

/-- The first statement on a line is the leftmost and outermost one. -/
theorem leads_of_stmtOnLine? (h : f.LaidOut lo hi) {s : Stmt}
    (hs : stmtOnLine? place f.statements line = some s) : Leads place f.statements line s := by
  have hmem : s ∈ f.statements := List.mem_of_find?_eq_some hs
  have houter : ∀ t ∈ f.statements, (place t.pos).line = line →
      t ∈ s.statements ∨ s.Precedes t := by
    intro t ht hline
    rcases h.statements.of_find? hs ht (beq_iff_eq.mpr hline) with rfl | hin | hafter
    · exact .inl (Stmt.mem_statements_self (SourceFile.isAbsent_of_mem ht))
    · exact .inl hin
    · exact .inr hafter
  refine ⟨hmem, line_of_stmtOnLine? hs, fun t ht hline => ?_, houter⟩
  rcases houter t ht hline with hin | hafter
  · exact (h.statements.nested s hmem t hin).1
  · exact Nat.le_of_lt hafter.1

/-- Statements that lead one line end at one position. -/
theorem Leads.stop_unique (h : f.LaidOut lo hi) {s t : Stmt} (hs : Leads place f.statements line s)
    (ht : Leads place f.statements line t) : s.stop = t.stop := by
  have hstarts : s.pos = t.pos :=
    Nat.le_antisymm (hs.leftmost t ht.mem ht.starts) (ht.leftmost s hs.mem hs.starts)
  have hst : t ∈ s.statements := (hs.outermost t ht.mem ht.starts).resolve_right fun hafter =>
    Nat.ne_of_lt hafter.1 hstarts
  have hts : s ∈ t.statements := (ht.outermost s hs.mem hs.starts).resolve_right fun hafter =>
    Nat.ne_of_lt hafter.1 hstarts.symm
  exact Nat.le_antisymm (h.statements.nested t ht.mem s hts).2
    (h.statements.nested s hs.mem t hst).2

/-- The first function on a line starts before all others there. -/
theorem eq_or_lt_of_funcOnLine? (h : f.LaidOut lo hi) {fn g : FuncDecl}
    (hfn : funcOnLine? place f.decls line = some fn) (hg : g ∈ Decl.functions f.decls)
    (hline : (place g.pos).line = line) : g = fn ∨ fn.pos < g.pos := by
  rw [funcOnLine?_eq] at hfn
  obtain ⟨-, before, after, hsplit, hbefore⟩ := List.find?_eq_some_iff_append.mp hfn
  have hordered := h.ordered
  rw [hsplit] at hordered hg
  rcases List.mem_append.mp hg with hg | hg
  · have hnot := hbefore g hg
    rw [beq_iff_eq.mpr hline] at hnot
    cases hnot
  · have hafter := (List.pairwise_append.mp hordered).2.1
    exact (List.mem_cons.mp hg).imp_right ((List.pairwise_cons.mp hafter).1 g)

/-- The function that is found on a line is the first one there. -/
theorem leads_of_funcOnLine? (h : f.LaidOut lo hi) {fn : FuncDecl}
    (hfn : funcOnLine? place f.decls line = some fn) :
    LeadsFunctions place (Decl.functions f.decls) line fn := by
  have hfind := hfn
  rw [funcOnLine?_eq] at hfind
  have hline := List.find?_some hfind
  refine ⟨List.mem_of_find?_eq_some hfind, beq_iff_eq.mp hline, fun g hg hgline => ?_⟩
  rcases eq_or_lt_of_funcOnLine? h hfn hg hgline with rfl | hlt
  · exact Nat.le_refl _
  · exact Nat.le_of_lt hlt

/-! ## Where the construct on a line ends -/

/-- Where the construct ends that the first statement, or else the first function, on a line
starts. -/
def stopOnLine? (place : Pos → Place) (f : SourceFile) (line : Int) : Option Pos :=
  ((stmtOnLine? place f.statements line).map Stmt.stop).or
    ((funcOnLine? place f.decls line).map FuncDecl.stop)

/-- What starts on a line ends where the search says. -/
theorem startsOn_iff (h : f.LaidOut lo hi) {stop : Pos} :
    StartsOn place f line stop ↔ stopOnLine? place f line = some stop := by
  cases hs : stmtOnLine? place f.statements line with
  | some s =>
    have hleads := leads_of_stmtOnLine? h hs
    have hstop : stopOnLine? place f line = some s.stop := by simp [stopOnLine?, hs]
    rw [hstop, Option.some.injEq]
    constructor
    · rintro (ht | ⟨hnone, -⟩)
      · exact hleads.stop_unique h ht
      · exact absurd hleads.starts (hnone s hleads.mem)
    · rintro rfl
      exact .statement hleads
  | none =>
    have hnone := stmtOnLine?_eq_none_iff.mp hs
    have hstop : stopOnLine? place f line = (funcOnLine? place f.decls line).map FuncDecl.stop := by
      simp [stopOnLine?, hs]
    rw [hstop, Option.map_eq_some_iff]
    constructor
    · rintro (ht | @⟨fn, -, hfn⟩)
      · exact absurd ht.starts (hnone _ ht.mem)
      · cases hfirst : funcOnLine? place f.decls line with
        | none => exact absurd hfn.starts (funcOnLine?_eq_none_iff.mp hfirst fn hfn.mem)
        | some g =>
          have hg := leads_of_funcOnLine? h hfirst
          rcases eq_or_lt_of_funcOnLine? h hfirst hfn.mem hfn.starts with rfl | hlt
          · exact ⟨_, rfl, rfl⟩
          · exact absurd hlt (Nat.not_lt.mpr (hfn.leftmost g hg.mem hg.starts))
    · rintro ⟨fn, hfn, rfl⟩
      exact .function hnone (leads_of_funcOnLine? h hfn)

/-- Only one line is the last that a comment reaches. -/
theorem reaches_iff (h : f.LaidOut lo hi) {last : Int} :
    Reaches place f line last ↔
      last = ((stopOnLine? place f (line + 1)).map fun stop => (place stop).line).getD line := by
  constructor
  · rintro (hstop | hnone)
    · rw [(startsOn_iff h).mp hstop]
      rfl
    · cases hstop : stopOnLine? place f (line + 1) with
      | none => rfl
      | some stop => exact absurd ((startsOn_iff h).mpr hstop) (hnone stop)
  · rintro rfl
    cases hstop : stopOnLine? place f (line + 1) with
    | none =>
      refine .nothing fun stop hstarts => ?_
      rw [(startsOn_iff h).mp hstarts] at hstop
      cases hstop
    | some stop => exact .construct ((startsOn_iff h).mpr hstop)

/-! ## The two kinds of comments -/

/-- Behind the start of a statement, a comment reaches to the end of the leading one. -/
theorem exists_leads_of_startsBefore (h : f.LaidOut lo hi) {s : Stmt} (hs : s ∈ f.statements)
    (hbefore : StartsBefore place c s) :
    ∃ t, Leads place f.statements (place c.pos).line t ∧ t.pos < c.pos ∧
      lastOf place f c = t.stop := by
  cases ht : stmtOnLine? place f.statements (place c.pos).line with
  | none => exact absurd hbefore.1 (stmtOnLine?_eq_none_iff.mp ht s hs)
  | some t =>
    have hleads := leads_of_stmtOnLine? h ht
    have hpos : t.pos < c.pos := Nat.lt_of_le_of_lt (hleads.leftmost s hs hbefore.1) hbefore.2
    refine ⟨t, hleads, hpos, ?_⟩
    simp [lastOf, stmtOf?, ht, hpos, Option.filter]

/-- Where no statement starts before it, a comment reaches to the end of what the next line
starts. -/
theorem lastOf_of_none_before (hnone : ∀ s ∈ f.statements, ¬ StartsBefore place c s) :
    lastOf place f c = (stopOnLine? place f ((place c.pos).line + 1)).getD c.pos := by
  have hown : (stmtOnLine? place f.statements (place c.pos).line).filter
      (fun s => decide (s.pos < c.pos)) = none := by
    rw [Option.filter_eq_none_iff]
    intro s hs hpos
    exact hnone s (List.mem_of_find?_eq_some hs) ⟨line_of_stmtOnLine? hs, of_decide_eq_true hpos⟩
  rw [lastOf, stmtOf?, hown, Option.none_or, stopOnLine?]
  cases stmtOnLine? place f.statements ((place c.pos).line + 1) with
  | some s => rfl
  | none => cases funcOnLine? place f.decls ((place c.pos).line + 1) <;> rfl

/-- A comment that stands alone reaches to the line where its construct ends. -/
theorem reaches_of_none_before (h : f.LaidOut lo hi)
    (hnone : ∀ s ∈ f.statements, ¬ StartsBefore place c s) :
    Reaches place f (place c.pos).line (place (lastOf place f c)).line := by
  rw [reaches_iff h, lastOf_of_none_before hnone]
  cases stopOnLine? place f ((place c.pos).line + 1) <;> rfl

end

/-! ## Sources with one comment -/

/-- What is read from a source with a single comment. -/
def readWithComment? (source : Text) : Option (SourceFile × FileSet × FileMap × Comment) :=
  match SourceFile.parse FileSet.empty Engine.sourceName source with
  | .ok (f, ⟨[m]⟩) =>
    match f.comments with
    | [c] => some (f, ⟨[m]⟩, m, c)
    | _ => none
  | _ => none

/-- What a test finds of a source with one comment holds of a file that was read. -/
theorem exists_of_readWithComment? (source : Text)
    {P : SourceFile → FileSet → FileMap → Comment → Prop} [∀ f s m c, Decidable (P f s m c)]
    (h : ((readWithComment? source).any fun (f, s, m, c) => decide (P f s m c)) = true) :
    ∃ f s m c, readWithComment? source = some (f, s, m, c) ∧ s.Read f m ∧ P f s m c := by
  obtain ⟨⟨f, s, m, c⟩, hread, hp⟩ := (Option.any_eq_true _ _).mp h
  refine ⟨f, s, m, c, hread, ?_, of_decide_eq_true hp⟩
  unfold readWithComment? at hread
  split at hread
  · next hparse =>
    split at hread
    · cases hread
      have hinOrder := (SourceFile.readsAll_of_parse FileSet.inOrder_empty hparse).inOrder
      exact ⟨hinOrder, List.mem_cons_self, _, _, _, hparse⟩
    · cases hread
  · cases hread

/-- A source with the given lines in a function. -/
def withLines (lines : Text) : Text :=
  "package p;type E int;const A E=0\nfunc f(e E)\x7b\n" ++ lines

/-! ## Lines of a range -/

section

variable {s : FileSet} {m : FileMap} {f : SourceFile} {c : Comment} {p : Place} {r : Text}
  (hs : s.HoldsPlain m) (h : f.LaidOut m.base (m.base + m.size))
include hs h

/-- On or after the line of the package clause, a comment suppresses the rules that it names from
its own line on. -/
theorem alone_suppresses_iff_lines (hc : (s.place f.package).line ≤ (s.place c.pos).line) :
    (alone s.place f c).suppresses p r = true ↔
      Names c r ∧ p.filename = m.name ∧
        (s.place c.pos).line ≤ p.line ∧ p.line ≤ (s.place (lastOf s.place f c)).line := by
  rw [alone_suppresses_iff_names, inRange_iff hc, hs.filename_eq h.package.1 h.package.2,
    eq_comm (b := p.filename)]

/-- A comment suppresses a statement on a later line if its range goes that far. -/
theorem alone_suppresses_stmt_iff (hc : (s.place f.package).line ≤ (s.place c.pos).line) {t : Stmt}
    (ht : t ∈ f.statements) (hline : (s.place c.pos).line < (s.place t.pos).line) :
    (alone s.place f c).suppresses (s.place t.pos) r = true ↔
      Names c r ∧ (s.place t.pos).line ≤ (s.place (lastOf s.place f c)).line := by
  obtain ⟨hlo, -, hhi, -⟩ := h.statements.between t ht
  rw [alone_suppresses_iff_lines hs h hc, hs.filename_eq hlo (Nat.le_of_lt hhi)]
  exact and_congr_right fun _ => ⟨fun hlast => hlast.2.2, fun hlast =>
    ⟨rfl, Int.le_of_lt hline, hlast⟩⟩

/-- The lines that a construct takes are in order. -/
theorem line_le_of_startsOn {line : Int} {stop : Pos} (hstop : StartsOn s.place f line stop) :
    line ≤ (s.place stop).line := by
  rcases hstop with ht | ⟨-, hfn⟩
  · obtain ⟨hlo, hle, -, hhi⟩ := h.statements.between _ ht.mem
    exact ht.starts ▸ hs.line_mono hlo hle hhi
  · obtain ⟨hlo, hle, hhi⟩ := h.functions _ hfn.mem
    exact hfn.starts ▸ hs.line_mono hlo hle hhi

/-- A comment reaches the next line if a statement starts there. -/
theorem le_of_reaches {line last : Int} (hreaches : Reaches s.place f line last) {t : Stmt}
    (ht : t ∈ f.statements) (hline : (s.place t.pos).line = line + 1) : line + 1 ≤ last := by
  rcases hreaches with hstop | hnone
  · exact line_le_of_startsOn hs h hstop
  · cases hfirst : stmtOnLine? s.place f.statements (line + 1) with
    | none => exact absurd hline (stmtOnLine?_eq_none_iff.mp hfirst t ht)
    | some u => exact absurd (.statement (leads_of_stmtOnLine? h hfirst)) (hnone u.stop)

end

/-- A comment that no statement starts before on its line, as one that stands alone, suppresses the
rules that it names on the lines from its own to the last one that it reaches. So it suppresses
findings at statements on the next line, and none on lines behind the construct that starts
there. -/
theorem suppresses_to_reach {s : FileSet} {f : SourceFile} {m : FileMap} {c : Comment}
    (h : s.Read f m) (hplain : m.marks = [])
    (hc : (s.place f.package).line ≤ (s.place c.pos).line)
    (halone : ∀ t ∈ f.statements, ¬ StartsBefore s.place c t) :
    ∃ last, Reaches s.place f (s.place c.pos).line last ∧
      (∀ r p, (alone s.place f c).suppresses p r = true ↔
        Names c r ∧ p.filename = m.name ∧ (s.place c.pos).line ≤ p.line ∧ p.line ≤ last) ∧
      ∀ t ∈ f.statements, ∀ r, Names c r →
        ((s.place t.pos).line = (s.place c.pos).line + 1 →
          (alone s.place f c).suppresses (s.place t.pos) r = true) ∧
        (last < (s.place t.pos).line →
          (alone s.place f c).suppresses (s.place t.pos) r = false) := by
  have hs := h.holdsPlain hplain
  have hlaid := h.laidOut
  have hreaches := reaches_of_none_before hlaid halone
  refine ⟨_, hreaches, fun r p => alone_suppresses_iff_lines hs hlaid hc, fun t ht r hr => ⟨?_, ?_⟩⟩
  · intro hnext
    rw [alone_suppresses_stmt_iff hs hlaid hc ht (by omega)]
    exact ⟨hr, hnext ▸ le_of_reaches hs hlaid hreaches ht hnext⟩
  · intro hbehind
    rw [← Bool.not_eq_true, alone_suppresses_iff_lines hs hlaid hc]
    rintro ⟨-, -, -, hlast⟩
    omega

theorem suppresses_to_reach_switch :
    ∃ f s m c, readWithComment? (withLines "//nolint\nswitch e\x7b\x7d\nswitch e\x7b\x7d\x7d") =
      some (f, s, m, c) ∧ Reaches s.place f 3 4 ∧
      ∀ p, (alone s.place f c).suppresses p "totality-check" = true ↔
        p.filename = m.name ∧ 3 ≤ p.line ∧ p.line ≤ 4 := by
  obtain ⟨f, s, m, c, hsource, hread, hplain, hc, halone, hline, hstop, hrules⟩ :=
    exists_of_readWithComment? (withLines "//nolint\nswitch e\x7b\x7d\nswitch e\x7b\x7d\x7d")
      (P := fun f s m c => m.marks = [] ∧ (s.place f.package).line ≤ (s.place c.pos).line ∧
        (∀ t ∈ f.statements, ¬ StartsBefore s.place c t) ∧ (s.place c.pos).line = 3 ∧
        (stopOnLine? s.place f 4).map (fun stop => (s.place stop).line) = some 4 ∧
        rulesOf? c.text = some []) (by decide +kernel)
  obtain ⟨last, hreaches, hiff, -⟩ := suppresses_to_reach hread hplain hc halone
  rw [hline] at hreaches hiff
  have hlast : last = 4 := by
    rw [(reaches_iff hread.laidOut).mp hreaches, show (3 : Int) + 1 = 4 from rfl, hstop]
    rfl
  subst hlast
  refine ⟨f, s, m, c, hsource, hreaches, fun p => ?_⟩
  rw [hiff]
  exact and_iff_right ⟨[], hrules, .inl rfl⟩

/-- A finding behind the construct that starts on the next line, but on the last line of it, is
suppressed. -/
theorem suppresses_behind_construct :
    ∃ f s m c, readWithComment? (withLines "//nolint\nif true\x7b\n\x7d;switch e\x7b\x7d\x7d") =
      some (f, s, m, c) ∧ s.Read f m ∧ m.marks = [] ∧
      (s.place f.package).line < (s.place c.pos).line ∧
      (∀ t ∈ f.statements, ¬ StartsBefore s.place c t) ∧
      ∃ a, Leads s.place f.statements ((s.place c.pos).line + 1) a ∧
        ∃ t ∈ f.statements, a.stop ≤ t.pos ∧
          (alone s.place f c).suppresses (s.place t.pos) "totality-check" = true := by
  obtain ⟨f, s, m, c, hsource, hread, hplain, hc, halone, hrun⟩ :=
    exists_of_readWithComment? (withLines "//nolint\nif true\x7b\n\x7d;switch e\x7b\x7d\x7d")
      (P := fun f s m c => m.marks = [] ∧ (s.place f.package).line < (s.place c.pos).line ∧
        (∀ t ∈ f.statements, ¬ StartsBefore s.place c t) ∧
        ((stmtOnLine? s.place f.statements ((s.place c.pos).line + 1)).any fun a =>
          f.statements.any fun t => a.stop ≤ t.pos &&
            (alone s.place f c).suppresses (s.place t.pos) "totality-check") = true)
      (by decide +kernel)
  obtain ⟨a, ha, hrun⟩ := (Option.any_eq_true _ _).mp hrun
  obtain ⟨t, ht, hrun⟩ := List.any_eq_true.mp hrun
  rw [Bool.and_eq_true, decide_eq_true_eq] at hrun
  exact ⟨f, s, m, c, hsource, hread, hplain, hc, halone, a,
    leads_of_stmtOnLine? hread.laidOut ha, t, ht, hrun⟩

/-! ## Comments behind statements -/

/-- A statement is inside the leading statement before a comment, on the line of the comment. -/
def BelongsTo (place : Pos → Place) (f : SourceFile) (c : Comment) (t : Stmt) : Prop :=
  ∃ s, Leads place f.statements (place c.pos).line s ∧ s.pos < c.pos ∧ t ∈ s.statements

/-- A statement follows the leading statement before a comment, on the line on which that one
ends. -/
def Overruns (place : Pos → Place) (f : SourceFile) (c : Comment) (t : Stmt) : Prop :=
  ∃ s, Leads place f.statements (place c.pos).line s ∧ s.pos < c.pos ∧
    s.Precedes t ∧ (place t.pos).line = (place s.stop).line

section

variable {s : FileSet} {m : FileMap} {f : SourceFile} {c : Comment} {t : Stmt} {r : Text}
  (hs : s.HoldsPlain m) (h : f.LaidOut m.base (m.base + m.size)) (ht : t ∈ f.statements)
  (hline : (s.place c.pos).line < (s.place t.pos).line)
include hs h ht hline

/-- Behind the start of a statement, a comment reaches what is inside the leading one or follows it
on its last line. -/
theorem line_le_lastOf_iff (hbefore : ∃ u ∈ f.statements, StartsBefore s.place c u) :
    (s.place t.pos).line ≤ (s.place (lastOf s.place f c)).line ↔
      BelongsTo s.place f c t ∨ Overruns s.place f c t := by
  obtain ⟨u, hu, hbefore⟩ := hbefore
  obtain ⟨v, hv, hpos, hstop⟩ := exists_leads_of_startsBefore h hu hbefore
  rw [hstop]
  obtain ⟨hvlo, hvle, hvstart, hvhi⟩ := h.statements.between v hv.mem
  obtain ⟨htlo, htle, htstart, hthi⟩ := h.statements.between t ht
  constructor
  · intro hlast
    have hlater : v.pos < t.pos := by
      refine Nat.lt_of_not_le fun hle => ?_
      have := hs.line_mono htlo hle (Nat.le_of_lt hvstart)
      rw [hv.starts] at this
      omega
    rcases h.statements.compare hv.mem ht with rfl | (hmem | hprec) | hmem | hprec
    · exact absurd hlater (Nat.lt_irrefl _)
    · exact .inl ⟨v, hv, hpos, hmem⟩
    · have hle := hs.line_mono (Nat.le_trans hvlo hvle) hprec.2 (Nat.le_of_lt htstart)
      exact .inr ⟨v, hv, hpos, hprec, Int.le_antisymm hlast hle⟩
    · exact absurd (h.statements.nested t ht v hmem).1 (Nat.not_le.mpr hlater)
    · exact absurd hprec.1 (Nat.lt_asymm hlater)
  · rintro (⟨a, ha, -, hin⟩ | ⟨a, ha, -, -, hend⟩)
    · have hle := (h.statements.nested a ha.mem t hin).2
      rw [ha.stop_unique h hv] at hle
      exact hs.line_mono htlo (Nat.le_trans htle hle) hvhi
    · rw [ha.stop_unique h hv] at hend
      exact Int.le_of_eq hend

end

/-- Where a statement starts before a comment on its line, or nothing starts on the next line, the
comment suppresses findings on later lines exactly at statements inside the leading statement before
it, and at those that follow this one on its last line. -/
theorem suppresses_behind_iff {s : FileSet} {f : SourceFile} {m : FileMap} {c : Comment}
    {t : Stmt} {r : Text} (h : s.Read f m) (hplain : m.marks = [])
    (hc : (s.place f.package).line ≤ (s.place c.pos).line)
    (hcode : (∃ u ∈ f.statements, StartsBefore s.place c u) ∨
      ∀ stop, ¬ StartsOn s.place f ((s.place c.pos).line + 1) stop)
    (ht : t ∈ f.statements) (hline : (s.place c.pos).line < (s.place t.pos).line) :
    (alone s.place f c).suppresses (s.place t.pos) r = true ↔
      Names c r ∧ (BelongsTo s.place f c t ∨ Overruns s.place f c t) := by
  have hs := h.holdsPlain hplain
  have hlaid := h.laidOut
  rw [alone_suppresses_stmt_iff hs hlaid hc ht hline]
  refine and_congr_right fun _ => ?_
  by_cases hbefore : ∃ u ∈ f.statements, StartsBefore s.place c u
  · exact line_le_lastOf_iff hs hlaid ht hline hbefore
  · -- then the comment reaches no other line, and there is no statement before it
    have hnothing := hcode.resolve_left hbefore
    have hnone : ∀ u ∈ f.statements, ¬ StartsBefore s.place c u := fun u hu hstarts =>
      hbefore ⟨u, hu, hstarts⟩
    have hlast := (reaches_iff hlaid).mp (.nothing hnothing)
    rw [← (reaches_iff hlaid).mp (reaches_of_none_before hlaid hnone)] at hlast
    constructor
    · intro hle
      omega
    · rintro (⟨v, hv, hpos, -⟩ | ⟨v, hv, hpos, -⟩)
      · exact absurd ⟨hv.starts, hpos⟩ (hnone v hv.mem)
      · exact absurd ⟨hv.starts, hpos⟩ (hnone v hv.mem)

theorem suppresses_behind_if :
    ∃ f s m c, readWithComment? (withLines "if true\x7b//nolint\nswitch e\x7b\x7d\x7d\x7d") =
      some (f, s, m, c) ∧
      ∃ t ∈ f.statements, (s.place c.pos).line < (s.place t.pos).line ∧
        (alone s.place f c).suppresses (s.place t.pos) "totality-check" = true ∧
        BelongsTo s.place f c t := by
  obtain ⟨f, s, m, c, hsource, hread, hplain, hc, hrun⟩ :=
    exists_of_readWithComment? (withLines "if true\x7b//nolint\nswitch e\x7b\x7d\x7d\x7d")
      (P := fun f s m c => m.marks = [] ∧ (s.place f.package).line ≤ (s.place c.pos).line ∧
        ((stmtOnLine? s.place f.statements (s.place c.pos).line).any fun a =>
          f.statements.any fun t => decide (StartsBefore s.place c a ∧ t.pos < a.stop ∧
            (s.place c.pos).line < (s.place t.pos).line ∧
            (alone s.place f c).suppresses (s.place t.pos) "totality-check" = true)) = true)
      (by decide +kernel)
  obtain ⟨a, ha, hrun⟩ := (Option.any_eq_true _ _).mp hrun
  obtain ⟨t, ht, hrun⟩ := List.any_eq_true.mp hrun
  obtain ⟨hbefore, hinside, hline, hsuppresses⟩ := of_decide_eq_true hrun
  have hleads := leads_of_stmtOnLine? hread.laidOut ha
  have hkept := ((suppresses_behind_iff hread hplain hc (.inl ⟨a, hleads.mem, hbefore⟩) ht
    hline).mp hsuppresses).2
  refine ⟨f, s, m, c, hsource, t, ht, hline, hsuppresses, hkept.resolve_right ?_⟩
  rintro ⟨b, hb, -, hafter, -⟩
  rw [Stmt.Precedes, hb.stop_unique hread.laidOut hleads] at hafter
  exact absurd hafter.2 (Nat.not_le.mpr hinside)

/-- A finding at a statement on the last line of the one before the comment, and inside none that
starts on the line of the comment, is suppressed. -/
theorem suppresses_behind_end :
    ∃ f s m c, readWithComment? (withLines "if true\x7b//nolint\n\x7d;switch e\x7b\x7d\x7d") =
      some (f, s, m, c) ∧ s.Read f m ∧ m.marks = [] ∧
      (s.place f.package).line ≤ (s.place c.pos).line ∧
      (∃ u ∈ f.statements, StartsBefore s.place c u) ∧
      ∃ t ∈ f.statements, (s.place c.pos).line < (s.place t.pos).line ∧
        (alone s.place f c).suppresses (s.place t.pos) "totality-check" = true ∧
        ∀ u ∈ f.statements, (s.place u.pos).line = (s.place c.pos).line → t ∉ u.statements := by
  obtain ⟨f, s, m, c, hsource, hread, hplain, hc, hbefore, hrun⟩ :=
    exists_of_readWithComment? (withLines "if true\x7b//nolint\n\x7d;switch e\x7b\x7d\x7d")
      (P := fun f s m c => m.marks = [] ∧ (s.place f.package).line ≤ (s.place c.pos).line ∧
        (∃ u ∈ f.statements, StartsBefore s.place c u) ∧
        ∃ t ∈ f.statements, (s.place c.pos).line < (s.place t.pos).line ∧
          (alone s.place f c).suppresses (s.place t.pos) "totality-check" = true ∧
          ∀ u ∈ f.statements, (s.place u.pos).line = (s.place c.pos).line → u.stop < t.stop)
      (by decide +kernel)
  obtain ⟨t, ht, hline, hsuppresses, hbehind⟩ := hrun
  refine ⟨f, s, m, c, hsource, hread, hplain, hc, hbefore, t, ht, hline, hsuppresses, ?_⟩
  intro u hu hstarts hin
  have hle := (hread.laidOut.statements.nested u hu t hin).2
  exact absurd (hbehind u hu hstarts) (Nat.not_lt.mpr hle)

end Suppression

end CaseCover
