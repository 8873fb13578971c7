import CaseCover.Proofs.Engine.Loading
import CaseCover.Proofs.Engine.Settings
import CaseCover.Proofs.Issue.Distinct
import CaseCover.Proofs.Suppression.Extent

/-!
# What an engine reports

An engine reports what its rules find, unless the rule or the file is ignored or a comment covers
the place (`Reports`). In files that were read, the lines that a comment covers follow from where it
stands (`covers_iff`), and all files that an engine checks were read. So its issues keep clear of
comments: `reports_of_lint` for runs on files and directories, `lintPackages_iff_reports` and
`lintSource_iff_reports` for sources held in memory.
-/

namespace CaseCover

namespace Suppression

/-! ## What a comment covers -/

/-- The first and the last line that a comment covers. A comment before the package clause covers
the whole file, one behind the start of a statement covers up to the end of the leading statement,
and any other one what starts on the next line. -/
inductive Covers (place : Pos → Place) (f : SourceFile) (c : Comment) : Int → Int → Prop where
  | file (h : (place c.pos).line < (place f.package).line) :
    Covers place f c 1 (place f.stop).line
  | behind {s : Stmt} (h : (place f.package).line ≤ (place c.pos).line)
    (hs : Leads place f.statements (place c.pos).line s) (hpos : s.pos < c.pos) :
    Covers place f c (place c.pos).line (place s.stop).line
  | next {last : Int} (h : (place f.package).line ≤ (place c.pos).line)
    (hnone : ∀ s ∈ f.statements, ¬ StartsBefore place c s)
    (hlast : Reaches place f (place c.pos).line last) : Covers place f c (place c.pos).line last

variable {place : Pos → Place} {f : SourceFile} {c : Comment} {lo hi : Pos}

/-- A comment of a file that is laid out covers the lines of its range. -/
theorem covers_iff (h : f.LaidOut lo hi) {first last : Int} :
    Covers place f c first last ↔ extent place f f.statements c = (first, last) := by
  rw [extent_eq]
  constructor
  · rintro (hbefore | @⟨s, hbehind, hs, hpos⟩ | ⟨hbehind, hnone, hlast⟩)
    · rw [if_pos hbefore]
    · obtain ⟨t, ht, -, hstop⟩ := exists_leads_of_startsBefore h hs.mem ⟨hs.starts, hpos⟩
      rw [if_neg (Int.not_lt.mpr hbehind), hstop, ht.stop_unique h hs]
    · rw [if_neg (Int.not_lt.mpr hbehind), (reaches_iff h).mp hlast,
        (reaches_iff h).mp (reaches_of_none_before h hnone)]
  · intro hextent
    split at hextent
    · next hbefore =>
      cases hextent
      exact .file hbefore
    · next hbehind =>
      cases hextent
      by_cases hstarts : ∃ s ∈ f.statements, StartsBefore place c s
      · obtain ⟨s, hs, hstarts⟩ := hstarts
        obtain ⟨t, ht, hpos, hstop⟩ := exists_leads_of_startsBefore h hs hstarts
        rw [hstop]
        exact .behind (Int.not_lt.mp hbehind) ht hpos
      · have hnone : ∀ s ∈ f.statements, ¬ StartsBefore place c s :=
          fun s hs hstart => hstarts ⟨s, hs, hstart⟩
        exact .next (Int.not_lt.mp hbehind) hnone (reaches_of_none_before h hnone)

/-- An issue keeps clear of the comments of a file: it is of another file, or on no line that a
comment covers which names its rule. -/
def KeepsClear (place : Pos → Place) (f : SourceFile) (i : Issue) : Prop :=
  (place f.package).filename = i.start.filename → ∀ c ∈ f.comments, Names c i.rule →
    ∀ first last, Covers place f c first last → i.start.line < first ∨ last < i.start.line

/-- Files that are laid out suppress an issue unless it keeps clear of their comments. -/
theorem suppresses_eq_false_iff_keepsClear {files : List SourceFile} {i : Issue}
    (h : ∀ f ∈ files, ∃ lo hi, f.LaidOut lo hi) :
    (ofFiles place files).suppresses i.start i.rule = false ↔
      ∀ f ∈ files, KeepsClear place f i := by
  rw [← Bool.not_eq_true, suppresses_iff]
  constructor
  · intro hnot f hf hfile c hc ⟨rules, hrules, hrule⟩ first last hcovers
    obtain ⟨lo, hi, hlaid⟩ := h f hf
    have hextent := (covers_iff hlaid).mp hcovers
    rw [← Int.not_le, ← Int.not_le, ← not_and_or]
    intro hlines
    exact hnot ⟨f, hf, hfile, c, hc, rules, hrules, hrule, by rwa [hextent]⟩
  · rintro hclear ⟨f, hf, hfile, c, hc, rules, hrules, hrule, hfirst, hlast⟩
    obtain ⟨lo, hi, hlaid⟩ := h f hf
    have hcovers : Covers place f c (extent place f f.statements c).1
        (extent place f f.statements c).2 := (covers_iff hlaid).mpr rfl
    exact (hclear f hf hfile c hc ⟨rules, hrules, hrule⟩ _ _ hcovers).elim
      (Int.not_lt.mpr hfirst) (Int.not_lt.mpr hlast)

end Suppression

open Suppression (KeepsClear)

namespace Engine

variable {e : Engine} {is : List Issue}

/-- An engine reports an issue of files: one of its rules finds it that is not ignored, its file is
not ignored, and it keeps clear of comments. -/
structure Reports (e : Engine) (place : Pos → Place) (o : Shapes) (files : List SourceFile)
    (i : Issue) : Prop where
  found : ∃ r ∈ e.rules, i ∈ ruleIssues place o files r
  active : i.rule ∉ e.ignoredRules
  counted : e.ignoresFile i.filename = false
  clear : ∀ f ∈ files, KeepsClear place f i

/-- The issues of files that were read are those that the engine reports. -/
theorem mem_issuesOf_iff {s : FileSet} {o : Shapes} {files : List SourceFile}
    (hread : ∀ f ∈ files, ∃ m, s.Read f m) {i : Issue} :
    i ∈ e.issuesOf s.place o files ↔ e.Reports s.place o files i := by
  have hlaid : ∀ f ∈ files, ∃ lo hi, f.LaidOut lo hi := fun f hf =>
    (hread f hf).elim fun m hm => ⟨_, _, hm.laidOut⟩
  rw [issuesOf_eq, (Issue.sort_perm _).mem_iff, List.mem_filter, List.mem_flatMap, keeps, counts,
    Bool.and_eq_true, Bool.not_eq_true', Bool.not_eq_true', Bool.or_eq_false_iff,
    Suppression.suppresses_eq_false_iff_keepsClear hlaid, List.contains_eq_mem,
    decide_eq_false_iff_not]
  constructor
  · rintro ⟨hfound, hactive, hclear, hcounted⟩
    exact ⟨hfound, hactive, hcounted, hclear⟩
  · rintro ⟨hfound, hactive, hcounted, hclear⟩
    exact ⟨hfound, hactive, hclear, hcounted⟩

/-- What an engine reports on a source held in memory. -/
theorem lintSource_iff_reports {source : Text} (h : e.lintSource source = .ok is) :
    ∃ f files c, SourceFile.parse FileSet.empty sourceName source = .ok (f, files) ∧
      World.initial.check f.name.name none [f] = .ok c ∧
      ∀ i, i ∈ is ↔ e.Reports files.place c.shapes [f] i := by
  unfold lintSource at h
  split at h
  · cases h
  · next f files hparse =>
    split at h
    · cases h
    · next c hcheck =>
      cases h
      have hread := (SourceFile.readsAll_of_parse FileSet.inOrder_empty hparse).read
      exact ⟨f, files, c, hparse, hcheck, fun i => mem_issuesOf_iff hread⟩

/-- What an engine reports on packages is about the last of them. -/
theorem lintPackages_iff_reports {ps : List PackageSource} (h : e.lintPackages ps = .ok is)
    (hne : is ≠ []) : ∃ c fs files, load ps = .ok (some (c, fs), files) ∧
      ∀ i, i ∈ is ↔ e.Reports files.place c.shapes fs i := by
  obtain ⟨⟨last, files⟩, hload, h⟩ := ok_of_bind h
  cases last with
  | none =>
    cases h
    exact absurd rfl hne
  | some last =>
    cases h
    exact ⟨last.1, last.2, files, hload, fun i => mem_issuesOf_iff (read_of_load hload)⟩

/-- The issues of a run are issues of packages that the loader gives. -/
theorem exists_of_mem_lintWith {load : Loader} {t : FileTree} {path : Text} {i : Issue}
    (h : (e.lintWith load t path).1 = .ok is) (hi : i ∈ is) :
    ∃ n ps p s, t.stat (Path.absolute t.cwd path) = .ok n ∧
      load t (Path.absolute t.cwd path) n.isDir = .ok ps ∧ p ∈ ps ∧ p.sound? = some s ∧
      i ∈ e.issuesOf s.files.place s.checked.shapes s.sources := by
  simp only [lintWith] at h
  split at h
  · cases h
  · next n hstat =>
    split at h
    · cases h
    · next ps hps =>
      cases h
      -- A run on a file keeps some of what a run on its directory finds.
      have hsubset (found : List Issue) :
          (if n.isDir then found else Issue.inFile t (Path.absolute t.cwd path) found) ⊆ found := by
        split
        · exact List.Subset.refl _
        · exact List.filter_subset_self _
      have hfound := hsubset _ (Issue.distinct_subset _ hi)
      rw [List.flatMap_map, List.mem_flatMap] at hfound
      obtain ⟨p, hp, hfound⟩ := hfound
      cases hsound : p.sound? with
      | none => simp [lintLoaded, hsound] at hfound
      | some s =>
        simp only [lintLoaded, hsound] at hfound
        exact ⟨n, ps, p, s, hstat, hps, hp, hsound, hfound⟩

/-- Issues that an engine reports on a path are about the packages that the path stands for. -/
theorem reports_of_lint {t : FileTree} {path : Text} {i : Issue}
    (h : (e.lint t path).1 = .ok is) (hi : i ∈ is) :
    ∃ n rs r s, t.stat (Path.absolute t.cwd path) = .ok n ∧
      e.targets t (Path.absolute t.cwd path) n.isDir = .ok rs ∧ r ∈ rs ∧
      r.workspace.load? r.package = some s ∧
      e.Reports s.files.place s.checked.shapes s.sources i := by
  obtain ⟨n, ps, p, s, hstat, hps, hp, hsound, hi⟩ := exists_of_mem_lintWith h hi
  rw [loader] at hps
  cases hrs : e.targets t (Path.absolute t.cwd path) n.isDir with
  | error cause =>
    rw [hrs] at hps
    cases hps
  | ok rs =>
    rw [hrs] at hps
    cases hps
    obtain ⟨r, hr, rfl⟩ := List.mem_map.mp hp
    have hread := Workspace.read_of_load? hsound
    exact ⟨n, rs, r, s, hstat, hrs, hr, hsound, (mem_issuesOf_iff hread).mp hi⟩

end Engine

end CaseCover
