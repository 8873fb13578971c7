import CaseCover.Engine.Run
import CaseCover.Proofs.Issue.Distinct

/-!
# Linting file by file

Linting a file means to lint the packages that it belongs to and to keep the issues that are located
in it. Whether an issue is located in a file shows in its key, so it does not matter whether repeated
issues are left out before or after that (`distinct_inFile`). So linting the files of a package one
by one gives the issues that linting its directory gives, as long as every issue is located in one of
the files (`fileRunsLaw`).

This takes for granted that the packages which a loader gives for the file report in it what those
do which it gives for the directory (`AgreesOn`); nothing else is asked of the loader. Without tests
the loader of an engine takes a source file and its directory for the same package
(`agreesOn_of_source`). With tests the directory stands for more packages, and loading one of them
can bring in what another one needs: see `not_partitions_outerTests`.
-/

namespace CaseCover

namespace Issue

/-- The names of a file: its own, and the one without links. -/
def namesOf (t : FileTree) (name : Text) : List Text := name :: (t.resolve name).toList

/-- No two of the files have a name in common. -/
def KnownApart (t : FileTree) (files : List Text) : Prop :=
  files.Pairwise fun f g => ∀ name ∈ namesOf t f, name ∉ namesOf t g

/-- Every issue is located in one of the files. -/
def LocatedIn (t : FileTree) (files : List Text) (is : List Issue) : Prop :=
  ∀ i ∈ is, ∃ f ∈ files, Path.clean i.filename ∈ namesOf t f

variable {t : FileTree} {files : List Text} {is : List Issue}

theorem goesByKey_contains (names : List Text) :
    GoesByKey fun i => names.contains (Path.clean i.filename) := by
  intro i j hkey
  have hname : i.filename = j.filename := congrArg (fun k => k.2.1) hkey
  simp only [hname]

/-- Repeated issues can be left out before those of a file are picked, or after. -/
theorem distinct_inFile (t : FileTree) (name : Text) (is : List Issue) :
    distinct (inFile t name is) = inFile t name (distinct is) :=
  (filter_distinct (goesByKey_contains (namesOf t name)) is).symm

theorem LocatedIn.distinct (h : LocatedIn t files is) : LocatedIn t files (distinct is) :=
  fun i hi => h i (distinct_subset is hi)

/-- Files without a common name share the issues out among them. -/
theorem flatMap_inFile_perm (hapart : KnownApart t files) (hin : LocatedIn t files is) :
    (files.flatMap fun f => inFile t f is).Perm is := by
  have hcut := flatMap_filter_perm_of_apart
    (fun f i => (namesOf t f).contains (Path.clean i.filename)) files is
    (hapart.imp fun {f g} hfg i _ hi => by
      rw [List.contains_iff_mem] at hi
      simpa using hfg _ hi)
  have hall : is.filter
      (fun i => files.any fun f => (namesOf t f).contains (Path.clean i.filename)) = is := by
    refine List.filter_eq_self.mpr fun i hi => ?_
    obtain ⟨f, hf, hname⟩ := hin i hi
    exact List.any_eq_true.mpr ⟨f, hf, List.contains_iff_mem.mpr hname⟩
  exact hcut.trans (.of_eq hall)

end Issue

/-! ## The sources of a folder -/

namespace Folder

variable {t : FileTree} {f : Folder} {s : NamedSource}

/-- A source that joins a folder has the name of a file in its directory. -/
theorem mem_sources_add {holds : Constraint → Bool} {name content : Text}
    (h : s ∈ (f.add holds name content).sources) :
    s ∈ f.sources ∨ s.name = Path.join [f.dir, name] := by
  simp only [add] at h
  repeat' split at h
  all_goals first
    | exact .inl h
    | exact (List.mem_append.mp h).imp_right fun hs => by rw [List.mem_singleton.mp hs]

theorem sources_addAuxiliary (f : Folder) (name content : Text) :
    (f.addAuxiliary name content).sources = f.sources := by
  unfold addAuxiliary
  split <;> rfl

/-- Every source that an entry adds is a file. -/
theorem stat_of_mem_addEntry {name : Text} (h : s ∈ (addEntry t f name).sources) :
    s ∈ f.sources ∨ ∃ content, t.stat s.name = .ok (.file content) := by
  unfold addEntry at h
  simp only at h
  split at h
  · exact .inl h
  split at h
  · split at h
    · next content hstat =>
      split at h
      · exact (mem_sources_add h).imp_right fun hname => ⟨content, by rw [hname]; exact hstat⟩
      · exact .inl h
    · exact .inl h
    · exact .inl h
  split at h
  · split at h
    · rw [sources_addAuxiliary] at h
      exact .inl h
    · exact .inl h
  · exact .inl h

theorem stat_of_mem_foldl {names : List Text} (h : s ∈ (names.foldl (addEntry t) f).sources) :
    s ∈ f.sources ∨ ∃ content, t.stat s.name = .ok (.file content) := by
  induction names generalizing f with
  | nil => exact .inl h
  | cons name names ih =>
    rcases ih h with h | h
    · exact stat_of_mem_addEntry h
    · exact .inr h

/-- The sources of a directory are files. -/
theorem stat_of_mem_sources {dir : Text} (h : s ∈ (ofDir t dir).sources) :
    ∃ content, t.stat s.name = .ok (.file content) := by
  rcases stat_of_mem_foldl h with h | h
  · cases h
  · exact h

/-- Only a directory has sources. -/
theorem isDir_of_mem_sources {dir : Text} (h : s ∈ (ofDir t dir).sources) :
    ∃ n, t.stat dir = .ok n ∧ n.isDir = true := by
  unfold ofDir at h
  cases hstat : t.stat dir with
  | error cause => simp [hstat, empty] at h
  | ok n =>
    cases n with
    | dir entries => exact ⟨_, rfl, rfl⟩
    | file content => simp [hstat, empty, FileTree.names, FileNode.entries] at h
    | link target => simp [hstat, empty, FileTree.names, FileNode.entries] at h

end Folder

/-! ## Runs -/

namespace Engine

variable {e : Engine} {load : Loader} {t : FileTree} {dir file : Text} {files : List Text}
  {found : List Issue}

/-- The issues of packages; those that are skipped have none. -/
def foundIn (e : Engine) (packages : List LoadedPackage) : List Issue :=
  packages.flatMap fun p => match e.lintLoaded p with | .ok is => is | .error _ => []

/-- What an engine reports on a path: nothing if it cannot run on it. -/
def reportOn (e : Engine) (load : Loader) (t : FileTree) (path : Text) : List Issue :=
  match (e.lintWith load t path).1 with | .ok is => is | .error _ => []

/-- A file and a directory can be linted, and the packages of the file report in it what those of the
directory do. -/
structure AgreesOn (e : Engine) (load : Loader) (t : FileTree) (dir file : Text) : Prop where
  isDir : ∃ n, t.stat (Path.absolute t.cwd dir) = .ok n ∧ n.isDir = true
  isFile : ∃ n, t.stat (Path.absolute t.cwd file) = .ok n ∧ n.isDir = false
  inFile : ∀ ps, load t (Path.absolute t.cwd dir) true = .ok ps →
    ∃ ps', load t (Path.absolute t.cwd file) false = .ok ps' ∧
      Issue.inFile t (Path.absolute t.cwd file) (e.foundIn ps') =
        Issue.inFile t (Path.absolute t.cwd file) (e.foundIn ps)

/-- Linting the files one by one gives the issues that linting the directory gives, if every issue is
located in one of the files. -/
def Partitions (e : Engine) (load : Loader) (t : FileTree) (dir : Text) (files : List Text) : Prop :=
  ∀ found, (e.lintWith load t dir).1 = .ok found →
    Issue.LocatedIn t (files.map (Path.absolute t.cwd)) found →
    (files.flatMap (e.reportOn load t)).Perm found

/-- A run on a directory that succeeds gives the issues of its packages, each once. -/
theorem lintWith_dir_eq_ok {n : FileNode} (hstat : t.stat (Path.absolute t.cwd dir) = .ok n)
    (hdir : n.isDir = true) (hlint : (e.lintWith load t dir).1 = .ok found) :
    ∃ ps, load t (Path.absolute t.cwd dir) true = .ok ps ∧
      found = Issue.distinct (e.foundIn ps) := by
  simp only [lintWith, hstat, hdir] at hlint
  cases hps : load t (Path.absolute t.cwd dir) true with
  | error cause => simp [hps] at hlint
  | ok ps =>
    simp only [hps, if_true, Except.ok.injEq, List.flatMap_map] at hlint
    exact ⟨ps, rfl, hlint.symm⟩

/-- A run on a file gives the issues of its packages that are located in it, each once. -/
theorem lintWith_file {n : FileNode} {ps : List LoadedPackage}
    (hstat : t.stat (Path.absolute t.cwd file) = .ok n) (hfile : n.isDir = false)
    (hps : load t (Path.absolute t.cwd file) false = .ok ps) :
    (e.lintWith load t file).1 = .ok
      (Issue.distinct (Issue.inFile t (Path.absolute t.cwd file) (e.foundIn ps))) := by
  simp only [lintWith, hstat, hfile, hps, List.flatMap_map, Bool.false_eq_true, if_false]
  rfl

/-- Where something is reported, the run has succeeded. -/
theorem lintWith_eq_ok_of_reportOn (h : e.reportOn load t file ≠ []) :
    (e.lintWith load t file).1 = .ok (e.reportOn load t file) := by
  unfold reportOn at h ⊢
  cases hlint : (e.lintWith load t file).1 with
  | ok is => rfl
  | error cause => simp [hlint] at h

/-- Where the packages agree, linting the file gives the issues of the directory that are located in
it. -/
theorem AgreesOn.lint_file (h : e.AgreesOn load t dir file)
    (hlint : (e.lintWith load t dir).1 = .ok found) :
    (e.lintWith load t file).1 = .ok (Issue.inFile t (Path.absolute t.cwd file) found) := by
  obtain ⟨n, hstat, hdir⟩ := h.isDir
  obtain ⟨ps, hps, rfl⟩ := lintWith_dir_eq_ok hstat hdir hlint
  obtain ⟨n', hstat', hfile⟩ := h.isFile
  obtain ⟨ps', hps', hsame⟩ := h.inFile ps hps
  rw [lintWith_file hstat' hfile hps', hsame, Issue.distinct_inFile]

/-- Files that agree with the directory share its issues out among them. -/
theorem partitions_of_agreesOn (h : ∀ f ∈ files, e.AgreesOn load t dir f)
    (hapart : Issue.KnownApart t (files.map (Path.absolute t.cwd))) :
    e.Partitions load t dir files := by
  intro found hlint hin
  have hreport : files.flatMap (e.reportOn load t) =
      (files.map (Path.absolute t.cwd)).flatMap fun f => Issue.inFile t f found := by
    rw [List.flatMap_map, List.flatMap_def, List.flatMap_def]
    refine congrArg List.flatten (List.map_congr_left fun f hf => ?_)
    rw [reportOn, (h f hf).lint_file hlint]
  rw [hreport]
  exact Issue.flatMap_inFile_perm hapart hin

/-! ## Without tests -/

/-- A directory may hold a package of its module. -/
def HoldsPackage (t : FileTree) (dir : Text) : Prop :=
  ∀ root m, Module.rootOf? t dir = some root → Module.ofRoot t root = .ok m → m.hasPackage dir = true

instance (t : FileTree) (dir : Text) : Decidable (HoldsPackage t dir) :=
  decidable_of_iff
    ((Module.rootOf? t dir).all fun root =>
      (Module.ofRoot t root).toOption.all fun m => m.hasPackage dir)
    (by
      simp only [HoldsPackage, Option.all_eq_true]
      refine forall_congr' fun root => ?_
      rw [forall_comm]
      refine forall_congr' fun hroot => forall_congr' fun m => ?_
      cases Module.ofRoot t root <;> simp [Except.toOption])

/-- Without tests, a source of the package in a directory stands for this package, as the directory
does. -/
theorem containing_eq_ofDir {m : Module} (hpackage : m.hasPackage (Path.dir file) = true)
    (hsource : file ∈ (Folder.ofDir t (Path.dir file)).sources.map (·.name)) :
    RunTarget.containing t m false file = RunTarget.ofDir t m false (Path.dir file) := by
  have hsome : (Folder.ofDir t (Path.dir file)).isEmpty = false := by
    obtain ⟨s, hs, -⟩ := List.mem_map.mp hsource
    simp [Folder.isEmpty, List.ne_nil_of_mem hs]
  have hheld : file ∈ (PackageSpec.ofFolder m.release (m.packagePath (Path.dir file))
      (Folder.ofDir t (Path.dir file))).sources.map (·.name) := hsource
  simp only [RunTarget.containing, RunTarget.ofDir, RunTarget.ofFolder, hpackage, hsome,
    Bool.not_false, Bool.and_self, Bool.true_or, if_true]
  rw [List.filter_cons_of_pos (by simpa [RunTarget.fileNames] using hheld), List.filter_nil]

/-- Without tests, the source of a package and its directory stand for the same packages. -/
theorem targets_of_source (htests : e.tests = false) (hpackage : HoldsPackage t (Path.dir file))
    (hsource : file ∈ (Folder.ofDir t (Path.dir file)).sources.map (·.name)) :
    e.targets t file false = e.targets t (Path.dir file) true := by
  simp only [targets, Bool.false_eq_true, if_false, if_true]
  cases hroot : Module.rootOf? t (Path.dir file) with
  | none => rfl
  | some root =>
    cases hm : Module.ofRoot t root with
    | error cause => simp only [hm]
    | ok m =>
      simp only [hm, htests]
      rw [containing_eq_ofDir (hpackage root m hroot hm) hsource]

/-- Without tests, the loader of an engine gives the same packages for a source of the package in a
directory as for the directory. -/
theorem agreesOn_of_source (htests : e.tests = false)
    (hpackage : HoldsPackage t (Path.absolute t.cwd dir))
    (hdir : Path.dir (Path.absolute t.cwd file) = Path.absolute t.cwd dir)
    (hsource : Path.absolute t.cwd file ∈
      (Folder.ofDir t (Path.absolute t.cwd dir)).sources.map (·.name)) :
    e.AgreesOn e.loader t dir file := by
  obtain ⟨s, hs, hname⟩ := List.mem_map.mp hsource
  obtain ⟨content, hstat⟩ := Folder.stat_of_mem_sources hs
  refine ⟨Folder.isDir_of_mem_sources hs, ⟨_, hname ▸ hstat, rfl⟩, fun ps hps => ⟨ps, ?_, rfl⟩⟩
  rw [← hdir] at hpackage hsource hps
  rw [loader, targets_of_source htests hpackage hsource]
  exact hps

end Engine

/-! ## Files and directories -/

open Engine Issue

/-- What linting files has to do with linting their directory. -/
structure FileRunsLaw (t : FileTree) : Prop where
  /-- Repeated issues may be left out before or after those of a file are picked. -/
  distinct_inFile : ∀ (name : Text) (all : List Issue),
    distinct (inFile t name all) = inFile t name (distinct all)
  /-- The issues of files that have no name in common are all issues, if each is located in one of
  the files. -/
  distinct_files : ∀ (files : List Text) (all : List Issue), KnownApart t files →
    LocatedIn t files all → (files.flatMap fun f => distinct (inFile t f all)).Perm (distinct all)
  /-- If the packages that a loader gives for a file report in it what those of a directory do,
  linting the file gives the issues of the directory that are located in it. -/
  lint_file : ∀ (load : Loader) (e : Engine) (dir file : Text) (found : List Issue),
    e.AgreesOn load t dir file → (e.lintWith load t dir).1 = .ok found →
    (e.lintWith load t file).1 = .ok (inFile t (Path.absolute t.cwd file) found)
  /-- If this is so for all of the files, linting them gives the issues of the directory. -/
  lint_files : ∀ (load : Loader) (e : Engine) (dir : Text) (files : List Text),
    (∀ f ∈ files, e.AgreesOn load t dir f) → KnownApart t (files.map (Path.absolute t.cwd)) →
    e.Partitions load t dir files
  /-- Without tests, it is so for the sources of the package in a directory, with the loader of the
  engine. -/
  sources_agree : ∀ (e : Engine) (dir file : Text), e.tests = false →
    HoldsPackage t (Path.absolute t.cwd dir) →
    Path.dir (Path.absolute t.cwd file) = Path.absolute t.cwd dir →
    Path.absolute t.cwd file ∈ (Folder.ofDir t (Path.absolute t.cwd dir)).sources.map (·.name) →
    e.AgreesOn e.loader t dir file

/-- Linting file by file gives what linting the directory gives. -/
theorem fileRunsLaw (t : FileTree) : FileRunsLaw t where
  distinct_inFile := Issue.distinct_inFile t
  distinct_files := by
    intro files all hapart hin
    simp only [Issue.distinct_inFile]
    exact flatMap_inFile_perm hapart hin.distinct
  lint_file := fun _ _ _ _ _ h hlint => h.lint_file hlint
  lint_files := fun _ _ _ _ h hapart => partitions_of_agreesOn h hapart
  sources_agree := fun _ _ _ htests hpackage hdir hsource =>
    agreesOn_of_source htests hpackage hdir hsource

/-- A package of two files, each with a switch that leaves the only value out. -/
def twoFiles : FileTree where
  root := .dir [
    ("a.go", .file <| utf8 "package p\n\ntype e int\n\nconst A e = 0\n\n" ++
      utf8 "func f(v e) \x7b\n\tswitch v \x7b\n\t\x7d\n\x7d\n"),
    ("b.go", .file "package p\n\nfunc g(v e) \x7b\n\tswitch v \x7b\n\t\x7d\n\x7d\n"),
    ("go.mod", .file "module example.com/m\n\ngo 1.22\n")]
  cwd := "/"

/-- The two files. -/
def bothFiles : List Text := ["/a.go", "/b.go"]

/-- An engine that does not look at tests. -/
def plainEngine : Engine := Engine.new "/" "/" []

/-- The issue of a switch of the package: its file, and the bytes and the line that it starts at. -/
def onlyLeftOut (filename : Text) (offset line : Nat) : Issue where
  rule := Rule.totality
  category := "totality"
  filename := filename
  message := "Match not exhaustive, values not matched: 0"
  note := "A not matched (/a.go:5)"
  start := ⟨filename, offset, line, 2⟩
  stop := ⟨filename, offset + 9, line, 11⟩
  severity := .error

/-- The issues of the package, one in each file. -/
def bothLeftOut : List Issue := [onlyLeftOut "/a.go" 53 8, onlyLeftOut "/b.go" 26 4]

theorem reportOn_twoFiles :
    plainEngine.reportOn plainEngine.loader twoFiles "/" = bothLeftOut := by
  unfold reportOn lintWith lintLoaded
  simp only [issuesOf, gather, distinct, sort_eq_insertionSort]
  decide +kernel

/-- Linting each of the two files gives one of the issues of the directory, linting both gives
all. -/
theorem fileRuns_of_twoFiles :
    (∀ f ∈ bothFiles, plainEngine.AgreesOn plainEngine.loader twoFiles "/" f) ∧
    KnownApart twoFiles bothFiles ∧ LocatedIn twoFiles bothFiles bothLeftOut ∧
    (plainEngine.lint twoFiles "/").1 = .ok bothLeftOut ∧
    (plainEngine.lint twoFiles "/a.go").1 = .ok [onlyLeftOut "/a.go" 53 8] ∧
    (plainEngine.lint twoFiles "/b.go").1 = .ok [onlyLeftOut "/b.go" 26 4] ∧
    (bothFiles.flatMap (plainEngine.reportOn plainEngine.loader twoFiles)).Perm bothLeftOut := by
  have hdir : Path.absolute twoFiles.cwd "/" = utf8 "/" := by decide +kernel
  have hfiles : bothFiles.map (Path.absolute twoFiles.cwd) = bothFiles := by decide +kernel
  have hpackage : HoldsPackage twoFiles "/" := by decide +kernel
  have hsources : ∀ f ∈ bothFiles, Path.dir (Path.absolute twoFiles.cwd f) = utf8 "/" ∧
      Path.absolute twoFiles.cwd f ∈ (Folder.ofDir twoFiles "/").sources.map (·.name) := by
    decide +kernel
  have hapart : KnownApart twoFiles bothFiles := by
    unfold KnownApart
    decide +kernel
  have hlocated : LocatedIn twoFiles bothFiles bothLeftOut := by
    unfold LocatedIn
    decide +kernel
  have hlint : (plainEngine.lint twoFiles "/").1 = .ok bothLeftOut := by
    rw [lint, lintWith_eq_ok_of_reportOn (by simp [reportOn_twoFiles, bothLeftOut]),
      reportOn_twoFiles]
  have law := fileRunsLaw twoFiles
  have hagree : ∀ f ∈ bothFiles, plainEngine.AgreesOn plainEngine.loader twoFiles "/" f := by
    intro f hf
    rw [← hdir] at hpackage hsources
    exact law.sources_agree plainEngine "/" f rfl hpackage (hsources f hf).1 (hsources f hf).2
  have hpicked {f : Text} (hf : f ∈ bothFiles) {is : List Issue}
      (his : inFile twoFiles (Path.absolute twoFiles.cwd f) bothLeftOut = is) :
      (plainEngine.lint twoFiles f).1 = .ok is := by
    rw [← his]
    exact law.lint_file plainEngine.loader plainEngine "/" f bothLeftOut (hagree f hf) hlint
  refine ⟨hagree, hapart, hlocated, hlint, hpicked (by decide) (by decide +kernel),
    hpicked (by decide) (by decide +kernel), ?_⟩
  rw [← hfiles] at hapart hlocated
  exact law.lint_files plainEngine.loader plainEngine "/" bothFiles hagree hapart bothLeftOut hlint
    hlocated

/-! ## With tests -/

/-- A module with a package whose outer test switches over a value of `q`, whose type comes from `r`.
The tested package imports `r`, its test does not. -/
def outerTests : FileTree where
  root := .dir [
    ("go.mod", .file "module example.com/m\n\ngo 1.22\n"),
    ("p.go", .file "package p\n\nimport \"example.com/m/r\"\n\nvar X = r.A\n"),
    ("p_test.go", .file <|
      utf8 "package p_test\n\nimport \"example.com/m/q\"\n\n" ++
      utf8 "func f() \x7b\n\tswitch q.V \x7b\n\t\x7d\n\x7d\n"),
    ("q", .dir [("q.go", .file "package q\n\nimport \"example.com/m/r\"\n\nvar V = r.A\n")]),
    ("r", .dir [("r.go", .file "package r\n\ntype e int\n\nconst A e = 0\n")])]
  cwd := "/"

/-- An engine that looks at tests. -/
def testingEngine : Engine := (Engine.new "/" "/" []).withTests true

/-- The issue of the outer test. -/
def valueLeftOut : Issue where
  rule := Rule.totality
  category := "totality"
  filename := "/p_test.go"
  message := "Match not exhaustive, values not matched: 0"
  note := "A not matched (/r/r.go:5)"
  start := ⟨"/p_test.go", 54, 6, 2⟩
  stop := ⟨"/p_test.go", 65, 6, 13⟩
  severity := .error

theorem reportOn_outerTests :
    testingEngine.reportOn testingEngine.loader outerTests "/" = [valueLeftOut] ∧
      testingEngine.reportOn testingEngine.loader outerTests "/p.go" = [] ∧
      testingEngine.reportOn testingEngine.loader outerTests "/p_test.go" = [] := by
  decide +kernel

/-- Together with its package the outer test is known to leave out a value, by itself it is not: the
constants of `r` are not loaded then. -/
theorem not_partitions_outerTests :
    KnownApart outerTests ["/p.go", "/p_test.go"] ∧
      ¬ testingEngine.Partitions testingEngine.loader outerTests "/" ["/p.go", "/p_test.go"] := by
  refine ⟨by unfold KnownApart; decide +kernel, fun h => ?_⟩
  obtain ⟨hdir, hfile, htest⟩ := reportOn_outerTests
  have hlint : (testingEngine.lintWith testingEngine.loader outerTests "/").1 =
      .ok [valueLeftOut] := by
    rw [lintWith_eq_ok_of_reportOn (by simp [hdir]), hdir]
  have hperm := h [valueLeftOut] hlint fun i hi => by
    obtain rfl := List.mem_singleton.mp hi
    exact ⟨"/p_test.go", by decide +kernel, by decide +kernel⟩
  simp [hfile, htest] at hperm

end CaseCover
