import CaseCover.Proofs.Engine.Settings
import CaseCover.Proofs.Path.Glob
import CaseCover.Proofs.Path.Relative

/-!
# Ignored directories

A pattern is tried on three spellings of a file: its name, the name relative to the root, and the
base name. The relative name is left out when it starts with two dots, which is meant for files
outside the root but also holds for files inside it whose path starts with a name like `..gen`
(`ignoresFile_iff_fits`).

A pattern without special bytes stands for the path it spells, taken in the root. It covers the
files at and below this path, and the files of that name in any directory, and no others
(`ignoresFile_iff_contains`). It misses files below its path when it is too short to be found as a
lead: the root itself, `.` and whatever goes up from the root are not (`SpellsLead`).
-/

namespace CaseCover

namespace Path

/-! ## Literal names -/

theorem hasMeta_of_subset {p q : Text} (h : q ⊆ p) (hp : hasMeta p = false) :
    hasMeta q = false := by
  rw [hasMeta, List.any_eq_false] at hp ⊢
  exact fun b hb => hp b (h hb)

theorem subset_join {c : Text} {cs : List Text} (hc : c ∈ cs) :
    c ⊆ Text.join [separator] cs := by
  induction cs with
  | nil => cases hc
  | cons d cs ih =>
    cases cs with
    | nil =>
      rw [List.mem_singleton] at hc
      subst hc
      exact List.Subset.refl c
    | cons e cs =>
      rw [Text.join]
      rcases List.mem_cons.mp hc with rfl | hc
      · exact List.subset_append_of_subset_left _ (List.subset_append_left _ _)
      · exact List.subset_append_of_subset_right _ (ih hc)

theorem subset_of_mem_components {p c : Text} (hc : c ∈ components p) : c ⊆ p := by
  have hp : Text.join [separator] (components p) = p := by
    rw [components_eq, Text.join_eq_intercalate, List.intercalate_splitOn]
  have hsubset := subset_join hc
  rwa [hp] at hsubset

theorem foldl_push_subset {rooted : Bool} {cs stack : List Text} :
    cs.foldl (push rooted) stack ⊆ cs ++ stack := by
  induction cs generalizing stack with
  | nil => exact List.Subset.refl _
  | cons c cs ih =>
    have hpush : push rooted stack c ⊆ c :: stack := by
      unfold push
      split
      · exact List.subset_cons_self c stack
      · split
        · cases stack with
          | nil => cases rooted <;> simp
          | cons top below =>
            change (if top == utf8 ".." then c :: top :: below else below) ⊆ _
            split
            · exact List.Subset.refl _
            · exact fun d hd => List.mem_cons_of_mem c (List.mem_cons_of_mem top hd)
        · exact List.Subset.refl _
    intro d hd
    rcases List.mem_append.mp (ih hd) with hd | hd
    · exact List.mem_append_left _ (List.mem_cons_of_mem c hd)
    · rcases List.mem_cons.mp (hpush hd) with rfl | hd
      · exact List.mem_append_left _ List.mem_cons_self
      · exact List.mem_append_right _ hd

/-- Components without special bytes join to a path without them. -/
theorem hasMeta_join {cs : List Text} (h : ∀ c ∈ cs, hasMeta c = false) :
    hasMeta (Text.join [separator] cs) = false := by
  induction cs with
  | nil => rfl
  | cons c cs ih =>
    have hc := h c List.mem_cons_self
    have hcs := ih fun d hd => h d (List.mem_cons_of_mem c hd)
    cases cs with
    | nil => exact hc
    | cons d cs =>
      rw [Text.join, hasMeta_append, hasMeta_append, hc, hcs]
      decide

/-- Cleaning a path adds no special bytes to it. -/
theorem hasMeta_clean {p : Text} (hp : hasMeta p = false) : hasMeta (clean p) = false := by
  have hjoin : hasMeta (Text.join [separator] (cleanComponents p)) = false := by
    refine hasMeta_join fun c hc => ?_
    have hc := foldl_push_subset (List.mem_reverse.mp hc)
    rw [List.append_nil] at hc
    exact hasMeta_of_subset (subset_of_mem_components hc) hp
  rw [clean_eq]
  split
  · have hsep : hasMeta [separator] = false := by decide
    rw [← List.singleton_append, hasMeta_append, hsep, hjoin]
    rfl
  · split
    · decide
    · exact hjoin

theorem clean_ne_nil (p : Text) : clean p ≠ [] := by
  rw [clean_eq]
  split
  · simp
  · split
    · decide
    · next hcs => exact join_ne_nil hcs fun c hc => (not_mem_of_mem_cleanComponents hc).2

theorem isAbs_join {cs : List Text} (h : ∀ c ∈ cs, IsPlain c) :
    isAbs (Text.join [separator] cs) = false := by
  cases cs with
  | nil => rfl
  | cons c cs =>
    have hc := h c List.mem_cons_self
    cases cs with
    | nil => exact isAbs_of_not_mem hc.noSeparator
    | cons d cs =>
      rw [Text.join, List.append_assoc, isAbs_append hc.nonempty]
      exact isAbs_of_not_mem hc.noSeparator

/-- The clean path of a directory is that of another one or leads down to it. -/
def Contains (dir path : Text) : Prop := cleanComponents dir <+: cleanComponents path

instance (dir path : Text) : Decidable (Contains dir path) := inferInstanceAs (Decidable (_ <+: _))

end Path

namespace Ignore

open CaseCover.Path (separator)

/-! ## Patterns without special bytes -/

section Literal

variable {pattern name : Text} {cs : List Text}

/-- A pattern without special bytes fits a name that is equal to it or goes on with a separator. -/
theorem fits_iff_of_literal (hpattern : Path.hasMeta pattern = false) :
    fits pattern name = true ↔ pattern = name ∨ pattern ++ [separator] <+: name := by
  rw [fits, Bool.or_eq_true, Path.globs_literal hpattern, isBelow, Text.startsWith,
    List.isPrefixOf_iff_prefix]

/-- An absolute pattern and a relative name have nothing in common, nor the other way round. -/
theorem fits_eq_false_of_isAbs_ne (hpattern : Path.hasMeta pattern = false) (hne : pattern ≠ [])
    (habs : Path.isAbs pattern ≠ Path.isAbs name) : fits pattern name = false := by
  rw [← Bool.not_eq_true, fits_iff_of_literal hpattern]
  rintro (rfl | ⟨t, rfl⟩)
  · exact habs rfl
  · rw [List.append_assoc, Path.isAbs_append hne] at habs
    exact habs rfl

/-- A name without separators is matched as a whole or not at all. -/
theorem fits_iff_of_not_mem (hpattern : Path.hasMeta pattern = false) (hname : separator ∉ name) :
    fits pattern name = true ↔ pattern = name := by
  rw [fits_iff_of_literal hpattern, or_iff_left]
  rintro ⟨t, rfl⟩
  exact hname (by simp)

/-- One joined path fits another one if it leads down to it. -/
theorem eq_or_prefix_join_iff {ds : List Text} (hds : ds ≠ []) (hcs : cs ≠ [])
    (hsepd : ∀ c ∈ ds, separator ∉ c) (hsepc : ∀ c ∈ cs, separator ∉ c) :
    Text.join [separator] ds = Text.join [separator] cs ∨
        Text.join [separator] ds ++ [separator] <+: Text.join [separator] cs ↔ ds <+: cs := by
  rw [Path.join_inj hds hcs hsepd hsepc, Path.join_separator_prefix_iff hds hcs hsepd hsepc]
  constructor
  · rintro (rfl | h)
    · exact List.prefix_rfl
    · exact h.1
  · intro h
    by_cases heq : ds = cs
    · exact .inl heq
    · exact .inr ⟨h, heq⟩

/-- An absolute pattern fits the absolute paths it leads down to, unless it is the root. -/
theorem fits_clean_iff_of_isAbs (habs : Path.isAbs pattern = true)
    (hpattern : Path.hasMeta pattern = false) (hcs : cs ≠ []) (hplain : ∀ c ∈ cs, Path.IsPlain c) :
    fits (Path.clean pattern) (separator :: Text.join [separator] cs) = true ↔
      Path.cleanComponents pattern ≠ [] ∧ Path.cleanComponents pattern <+: cs := by
  have hsepc : ∀ c ∈ cs, separator ∉ c := fun c hc => (hplain c hc).noSeparator
  rw [fits_iff_of_literal (Path.hasMeta_clean hpattern), Path.clean_of_isAbs habs, List.cons_append,
    List.cons_inj_right, List.cons_prefix_cons, and_iff_right rfl]
  by_cases hds : Path.cleanComponents pattern = []
  · rw [hds, iff_false_right (fun h => h.1 rfl)]
    rintro (h | ⟨t, ht⟩)
    · exact Path.join_ne_nil hcs (fun c hc => (hplain c hc).nonempty) h.symm
    · have habs := Path.isAbs_join hplain
      rw [← ht] at habs
      cases habs
  · rw [eq_or_prefix_join_iff hds hcs
      (fun c hc => (Path.not_mem_of_mem_cleanComponents hc).1) hsepc, and_iff_right hds]

/-- A relative pattern fits the relative paths it leads down to, unless it is `.`. -/
theorem fits_clean_iff_of_not_isAbs (habs : Path.isAbs pattern = false)
    (hpattern : Path.hasMeta pattern = false) (hcs : cs ≠ []) (hplain : ∀ c ∈ cs, Path.IsPlain c) :
    fits (Path.clean pattern) (Text.join [separator] cs) = true ↔
      Path.cleanComponents pattern ≠ [] ∧ Path.cleanComponents pattern <+: cs := by
  have hsepc : ∀ c ∈ cs, separator ∉ c := fun c hc => (hplain c hc).noSeparator
  rw [fits_iff_of_literal (Path.hasMeta_clean hpattern), Path.clean_eq, habs,
    if_neg Bool.false_ne_true]
  by_cases hds : Path.cleanComponents pattern = []
  · have hdot : ∀ c ∈ [utf8 "."], separator ∉ c := by decide
    have hjoin := eq_or_prefix_join_iff (List.cons_ne_nil (utf8 ".") []) hcs hdot hsepc
    rw [if_pos hds, iff_false_right (fun h => h.1 hds)]
    intro h
    have hmem : utf8 "." ∈ cs := (hjoin.mp h).subset List.mem_cons_self
    exact (hplain _ hmem).notDot rfl
  · rw [if_neg hds, eq_or_prefix_join_iff hds hcs
      (fun c hc => (Path.not_mem_of_mem_cleanComponents hc).1) hsepc, and_iff_right hds]

end Literal

/-! ## The spellings of a file -/

/-- A file is covered if a pattern fits its name, its relative name, or its base name. -/
theorem covers_iff {cwd root : Text} {patterns : List Text} {file : Text} (hfile : file ≠ []) :
    covers cwd root patterns file = true ↔
      ∃ q ∈ patterns, fits q file = true ∨ fits q (relativeName cwd root file) = true ∨
        fits q (Path.base file) = true := by
  simp [covers, hfile]

/-- Patterns are added cleaned, except for empty ones. -/
theorem foldl_add (patterns kept : List Text) :
    patterns.foldl add kept = kept ++ (patterns.filter (!·.isEmpty)).map Path.clean := by
  induction patterns generalizing kept with
  | nil => simp
  | cons p patterns ih =>
    rw [List.foldl_cons, ih, add]
    cases hp : p.isEmpty <;> simp [hp]

theorem mem_foldl_add {patterns : List Text} {q : Text} :
    q ∈ patterns.foldl add [] ↔ ∃ p ∈ patterns, p ≠ [] ∧ Path.clean p = q := by
  simp [foldl_add, and_assoc]

/-- The relative name of a file inside the root, unless it starts with two dots. -/
theorem relativeName_eq {cwd root file : Text} {names : List Text} (hroot : root ≠ [])
    (h : Path.Inside (Path.absolute cwd root) file names) :
    relativeName cwd root file =
      if Text.startsWith (Text.join [separator] names) ".." then file
      else Text.join [separator] names := by
  rw [relativeName, h.rel_eq]
  simp [hroot]

/-- Inside the root, the relative name is the path that leads down to the file. It is tried unless
it starts with two dots. -/
theorem covers_iff_of_inside {cwd root file : Text} {names patterns : List Text} (hroot : root ≠ [])
    (h : Path.Inside (Path.absolute cwd root) file names) :
    covers cwd root patterns file = true ↔
      ∃ q ∈ patterns, fits q file = true ∨ fits q (Path.base file) = true ∨
        fits q (Text.join [separator] names) = true ∧
          Text.startsWith (Text.join [separator] names) ".." = false := by
  rw [covers_iff h.path_ne_nil, relativeName_eq hroot h]
  refine exists_congr fun q => and_congr_right fun _ => ?_
  cases Text.startsWith (Text.join [separator] names) ".." with
  | true => simp
  | false => simp [or_comm]

end Ignore

namespace Engine

open CaseCover.Path (separator)

/-- An engine for a root directory that ignores the files that match one of some patterns. -/
def ignoring (cwd root : Text) (configs : List (Text × RuleConfig)) (patterns : List Text) : Engine :=
  patterns.foldl withoutPath (new cwd root configs)

/-- An engine with ignored paths is the engine as it was made, with these patterns. -/
theorem ignoring_eq (cwd root : Text) (configs : List (Text × RuleConfig)) (patterns : List Text) :
    ignoring cwd root configs patterns =
      { new cwd root configs with ignoredPaths := patterns.foldl Ignore.add [] } := by
  have hfold (e : Engine) : patterns.foldl withoutPath e =
      { e with ignoredPaths := patterns.foldl Ignore.add e.ignoredPaths } := by
    induction patterns generalizing e with
    | nil => rfl
    | cons p patterns ih => exact ih (e.withoutPath p)
  have hnew : (new cwd root configs).ignoredPaths = [] := by
    rw [new_eq]
    split <;> rfl
  rw [ignoring, hfold, hnew]

theorem ignoresFile_ignoring (cwd root : Text) (configs : List (Text × RuleConfig))
    (patterns : List Text) (file : Text) :
    (ignoring cwd root configs patterns).ignoresFile file =
      Ignore.covers cwd root (patterns.foldl Ignore.add []) file := by
  rw [ignoring_eq]
  change Ignore.covers (new cwd root configs).cwd (new cwd root configs).root _ file = _
  rw [cwd_new, root_new]

/-- A file inside the root is ignored if a pattern fits its name, its base name, or its path
relative to the root where that does not start with two dots. -/
theorem ignoresFile_iff_fits {cwd root file : Text} {names : List Text}
    (configs : List (Text × RuleConfig)) (patterns : List Text) (hroot : root ≠ [])
    (h : Path.Inside (Path.absolute cwd root) file names) :
    (ignoring cwd root configs patterns).ignoresFile file = true ↔
      ∃ p ∈ patterns, p ≠ [] ∧
        (Ignore.fits (Path.clean p) file = true ∨
          Ignore.fits (Path.clean p) (Path.base file) = true ∨
          Ignore.fits (Path.clean p) (Text.join [separator] names) = true ∧
            Text.startsWith (Text.join [separator] names) ".." = false) := by
  rw [ignoresFile_ignoring, Ignore.covers_iff_of_inside hroot h]
  constructor
  · rintro ⟨q, hq, hfits⟩
    obtain ⟨p, hp, hne, rfl⟩ := Ignore.mem_foldl_add.mp hq
    exact ⟨p, hp, hne, hfits⟩
  · rintro ⟨p, hp, hne, hfits⟩
    exact ⟨Path.clean p, Ignore.mem_foldl_add.mpr ⟨p, hp, hne, rfl⟩, hfits⟩

/-- Of these two patterns the second fits the path in the root, with a component that starts with two
dots. -/
theorem ignoresFile_dottedName :
    utf8 "lib" ≠ [] ∧ Path.Inside (Path.absolute "/home" "lib") "/home/lib/gen/..x.go" ["gen", "..x.go"] ∧
    (ignoring "/home" "lib" [] ["*.md", "./gen/"]).ignoresFile "/home/lib/gen/..x.go" = true := by
  have hinside : Path.Inside (Path.absolute "/home" "lib") "/home/lib/gen/..x.go" ["gen", "..x.go"] :=
    ⟨by decide, by decide, by decide, by decide⟩
  refine ⟨by decide, hinside, (ignoresFile_iff_fits [] _ (by decide) hinside).mpr ?_⟩
  exact ⟨utf8 "./gen/", by decide, by decide, .inr (.inr (by decide))⟩

/-- The pattern fits the path in the root, which looks as if it left the root. -/
theorem not_ignoresFile_dottedDir :
    Path.Inside (Path.absolute "/" "/r") "/r/..gen/x.go" ["..gen", "x.go"] ∧
    Path.rel "/r" "/r/..gen/x.go" = some "..gen/x.go" ∧
    Ignore.fits (Path.clean "..gen") "..gen/x.go" = true ∧
    (ignoring "/" "/r" [] ["..gen"]).ignoresFile "/r/..gen/x.go" = false := by
  refine ⟨⟨by decide, by decide, by decide, by decide⟩, by decide, by decide, by decide⟩

/-! ## Directories to ignore -/

/-- A pattern is spelled so that it is found in front of a path with these names below the root: it
does not come to the root or to `.`, and if it is relative, it does not go up from the root, and the
names do not start with two dots. -/
def SpellsLead (pattern : Text) (names : List Text) : Prop :=
  Path.cleanComponents pattern ≠ [] ∧
    (Path.isAbs pattern = false →
      (Path.cleanComponents pattern).head? ≠ some (utf8 "..") ∧
        Text.startsWith (Text.join [separator] names) ".." = false)

instance (pattern : Text) (names : List Text) : Decidable (SpellsLead pattern names) :=
  inferInstanceAs (Decidable (_ ∧ _))

section Directory

variable {cwd root pattern file : Text} {names : List Text}

/-- An absolute pattern contains what its components lead down to, wherever the root is. -/
theorem contains_iff_of_isAbs (hpattern : Path.isAbs pattern = true) :
    Path.Contains (Path.absolute root pattern) file ↔
      Path.cleanComponents pattern <+: Path.cleanComponents file := by
  rw [Path.Contains, Path.absolute, if_pos hpattern, Path.cleanComponents_clean]

/-- A relative pattern that does not go up from the root contains what is below its names. -/
theorem contains_iff_of_not_isAbs (h : Path.Inside root file names)
    (hpattern : Path.isAbs pattern = false) (hne : pattern ≠ []) :
    Path.Contains (Path.absolute root pattern) file ∧
        (Path.cleanComponents pattern).head? ≠ some (utf8 "..") ↔
      Path.cleanComponents pattern <+: names := by
  obtain ⟨ups, below, hplain, hcomponents, hfull⟩ :=
    Path.cleanComponents_absolute h.dirAbs hpattern hne
  rw [Path.Contains, hfull, hcomponents, h.components]
  cases ups with
  | zero =>
    rw [List.replicate_zero, List.nil_append, Nat.sub_zero, List.take_length,
      List.prefix_append_right_inj, and_iff_left]
    intro hhead
    exact (hplain _ (List.mem_of_mem_head? hhead)).notDots rfl
  | succ ups =>
    rw [List.replicate_succ, List.cons_append]
    refine iff_of_false (fun hboth => hboth.2 rfl) fun hlead => ?_
    exact (h.isPlain _ (hlead.subset List.mem_cons_self)).notDots rfl

/-- A pattern without special bytes ignores the file at the path it stands for, the files below it,
as far as the pattern spells the lead of their paths, and the files of that name. -/
theorem ignoresFile_iff_contains (cwd : Text) (configs : List (Text × RuleConfig))
    (h : Path.Inside root file names) (hfile : Path.clean file = file) (hne : pattern ≠ [])
    (hpattern : Path.hasMeta pattern = false) :
    (ignoring cwd root configs [pattern]).ignoresFile file = true ↔
      Path.Contains (Path.absolute root pattern) file ∧ SpellsLead pattern names ∨
        Path.clean pattern = Path.base file := by
  have hroot : root ≠ [] := by
    rintro rfl
    exact absurd h.dirAbs (by decide)
  have hinside : Path.Inside (Path.absolute cwd root) file names := by
    rw [Path.absolute, if_pos h.dirAbs]
    exact h.clean_dir
  have hclean := Path.hasMeta_clean hpattern
  have hbase := Ignore.fits_iff_of_not_mem hclean (h.isPlain_base hfile).noSeparator
  have hrelative : Path.isAbs (Text.join [separator] names) = false := Path.isAbs_join h.isPlain
  rw [ignoresFile_iff_fits configs [pattern] hroot hinside]
  simp only [List.mem_singleton, exists_eq_left, ne_eq, hne, not_false_eq_true, true_and, hbase]
  cases habs : Path.isAbs pattern with
  | true =>
    have hjoined : file = separator :: Text.join [separator] (Path.cleanComponents file) := by
      rw [← Path.clean_of_isAbs h.pathAbs, hfile]
    have hcomponents : Path.cleanComponents file ≠ [] := by
      rw [h.components]
      simp [h.nonempty]
    have hname := Ignore.fits_clean_iff_of_isAbs habs hpattern hcomponents
      fun c hc => Path.isPlain_of_mem_cleanComponents h.pathAbs hc
    rw [← hjoined] at hname
    have hunder : Ignore.fits (Path.clean pattern) (Text.join [separator] names) = false :=
      Ignore.fits_eq_false_of_isAbs_ne hclean (Path.clean_ne_nil pattern)
        (by rw [Path.isAbs_clean, habs, hrelative]; decide)
    rw [hname, hunder, contains_iff_of_isAbs habs, SpellsLead, habs]
    simp only [Bool.false_eq_true, false_and, or_false, Bool.true_eq_false, false_imp_iff, and_true]
    rw [and_comm]
  | false =>
    have hname : Ignore.fits (Path.clean pattern) file = false :=
      Ignore.fits_eq_false_of_isAbs_ne hclean (Path.clean_ne_nil pattern)
        (by rw [Path.isAbs_clean, habs, h.pathAbs]; decide)
    have hunder := Ignore.fits_clean_iff_of_not_isAbs habs hpattern h.nonempty h.isPlain
    rw [hname, hunder, ← contains_iff_of_not_isAbs h habs hne, SpellsLead, habs]
    simp only [Bool.false_eq_true, false_or, forall_const]
    rw [or_comm]
    refine or_congr_left ⟨?_, ?_⟩
    · rintro ⟨⟨hnames, hcontains, hhead⟩, hdots⟩
      exact ⟨hcontains, hnames, hhead, hdots⟩
    · rintro ⟨hcontains, hnames, hhead, hdots⟩
      exact ⟨⟨hnames, hcontains, hhead⟩, hdots⟩

end Directory

/-- The pattern comes to a directory below the root and ignores a file in it, but none in the
directory whose name goes on after that. -/
theorem ignoresFile_directory :
    Path.Inside "/r" "/r/gen/x.go" ["gen", "x.go"] ∧ Path.Inside "/r" "/r/gen2/x.go" ["gen2", "x.go"] ∧
    Path.clean "/r/gen/x.go" = "/r/gen/x.go" ∧ Path.clean "/r/gen2/x.go" = "/r/gen2/x.go" ∧
    utf8 "./a/../gen/" ≠ [] ∧ Path.hasMeta "./a/../gen/" = false ∧
    (ignoring "/" "/r" [] ["./a/../gen/"]).ignoresFile "/r/gen/x.go" = true ∧
    (ignoring "/" "/r" [] ["./a/../gen/"]).ignoresFile "/r/gen2/x.go" = false := by
  have hin : Path.Inside "/r" "/r/gen/x.go" ["gen", "x.go"] :=
    ⟨by decide, by decide, by decide, by decide⟩
  have hout : Path.Inside "/r" "/r/gen2/x.go" ["gen2", "x.go"] :=
    ⟨by decide, by decide, by decide, by decide⟩
  refine ⟨hin, hout, by decide, by decide, by decide, by decide, ?_, ?_⟩
  · exact (ignoresFile_iff_contains "/" [] hin (by decide) (by decide) (by decide)).mpr (by decide)
  · rw [← Bool.not_eq_true,
      ignoresFile_iff_contains "/" [] hout (by decide) (by decide) (by decide)]
    decide

/-- Patterns for the root, for the directory of all paths and for the root seen from below it stand
for directories that contain the file, and ignore nothing. -/
theorem not_ignoresFile_tooShort :
    (Path.Contains (Path.absolute "/r" ".") "/r/x.go" ∧
      (ignoring "/" "/r" [] ["."]).ignoresFile "/r/x.go" = false) ∧
    (Path.Contains (Path.absolute "/r" "/") "/r/x.go" ∧
      (ignoring "/" "/r" [] ["/"]).ignoresFile "/r/x.go" = false) ∧
    (Path.Contains (Path.absolute "/r" "../r") "/r/x.go" ∧
      (ignoring "/" "/r" [] ["../r"]).ignoresFile "/r/x.go" = false) := by
  decide

end Engine

end CaseCover
