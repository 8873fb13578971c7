import CaseCover.Proofs.Text.Order
import CaseCover.Report.Print

/-!
# The order of printed issues

Issues come in the order in which the directories were done, which differs from run to run. They are
printed file by file, the files in the order of their names, and the issues of one file in the order
in which they came. So the order of directories does not show, as long as no file has issues from
two of them (`byFile_eq_of_perm`).
-/

namespace CaseCover

/-! ## Issues by file -/

namespace Issue

/-- No file has issues in both lists. -/
def Apart (a b : List Issue) : Prop := ∀ i ∈ a, ∀ j ∈ b, i.filename ≠ j.filename

theorem Apart.symm {a b : List Issue} (h : Apart a b) : Apart b a :=
  fun j hj i hi heq => h i hi j hj heq.symm

/-- One of two lists that are apart has no issue of a file. -/
theorem Apart.filter_eq_nil {a b : List Issue} (h : Apart a b) (name : Text) :
    (a.filter fun i => i.filename == name) = [] ∨ (b.filter fun i => i.filename == name) = [] := by
  rw [Classical.or_iff_not_imp_left]
  intro hne
  obtain ⟨i, hi⟩ := List.exists_mem_of_ne_nil _ hne
  obtain ⟨hia, hname⟩ := List.mem_filter.mp hi
  rw [List.filter_eq_nil_iff]
  intro j hj hj'
  exact h i hia j hj ((beq_iff_eq.mp hname).trans (beq_iff_eq.mp hj').symm)

variable {a b : List (List Issue)}

theorem filter_flatten_eq_of_perm (h : a.Perm b) (hapart : a.Pairwise Apart) (name : Text) :
    (a.flatten.filter fun i => i.filename == name) =
      b.flatten.filter fun i => i.filename == name :=
  filter_flatten_eq_of_apart h (hapart.imp fun h => h.filter_eq_nil name)

theorem fileNames_eq_of_perm (h : a.Perm b) : fileNames a.flatten = fileNames b.flatten :=
  Text.sort_eraseDups_eq_of_mem_iff fun _ => (h.flatten.map _).mem_iff

/-- Issues by file do not depend on the order in which lists of different files were joined. -/
theorem byFile_eq_of_perm (h : a.Perm b) (hapart : a.Pairwise Apart) :
    byFile a.flatten = byFile b.flatten := by
  unfold byFile
  rw [fileNames_eq_of_perm h]
  refine List.map_congr_left fun name _ => ?_
  rw [filter_flatten_eq_of_perm h hapart name]

/-- Taken file by file, all issues of the files are there, each as often as before. -/
theorem flatMap_filter_perm {names : List Text} (h : names.Nodup) (is : List Issue) :
    (names.flatMap fun name => is.filter fun i => i.filename == name).Perm
      (is.filter fun i => names.contains i.filename) := by
  have hnames : (is.filter fun i => names.contains i.filename) =
      is.filter fun i => names.any fun name => i.filename == name :=
    List.filter_congr fun _ _ => List.contains_eq_any_beq
  rw [hnames]
  refine flatMap_filter_perm_of_apart (fun name i => i.filename == name) names is (h.imp ?_)
  intro name name' hne i _ hi
  obtain rfl := beq_iff_eq.mp hi
  exact beq_eq_false_iff_ne.mpr hne

end Issue

/-! ## What is printed -/

namespace Report

variable {t : FileTree} {o : Output} {is js : List Issue}

/-- Printing looks at issues file by file only. -/
theorem print_eq_of_byFile (h : Issue.byFile is = Issue.byFile js) :
    print t o is = print t o js := by
  cases o with
  | text => simp only [print, h]
  | json => simp only [print, Json.issues, h]
  | jsonFile path => simp only [print, Json.issues, h]

/-- The files with issues that can be read, with their lines, in the order of their names. -/
def readable (t : FileTree) (is : List Issue) : List (Text × List Text) :=
  (Issue.fileNames is).filterMap fun name =>
    (t.readLines name).toOption.map fun lines => (name, lines)

theorem mem_readable {name : Text} {lines : List Text} :
    (name, lines) ∈ readable t is ↔
      (∃ i ∈ is, i.filename = name) ∧ t.readLines name = .ok lines := by
  have hok {r : Except PathError (List Text)} {ls : List Text} :
      r.toOption = some ls ↔ r = .ok ls := by
    cases r <;> simp [Except.toOption]
  simp only [readable, Issue.fileNames, List.mem_filterMap, Text.mem_sort_eraseDups, List.mem_map,
    Option.map_eq_some_iff, hok, Prod.mk.injEq]
  constructor
  · rintro ⟨n, hn, ls, hls, rfl, rfl⟩
    exact ⟨hn, hls⟩
  · rintro ⟨hn, hls⟩
    exact ⟨name, hn, lines, hls, rfl, rfl⟩

theorem readable_pairwise (t : FileTree) (is : List Issue) :
    (readable t is).Pairwise fun e f => Text.less e.1 f.1 = true := by
  refine List.pairwise_filterMap.mpr ((Text.sort_eraseDups_pairwise _).imp ?_)
  intro n m hless e he f hf
  obtain ⟨ls, -, rfl⟩ := Option.map_eq_some_iff.mp he
  obtain ⟨ls', -, rfl⟩ := Option.map_eq_some_iff.mp hf
  exact hless

/-- The printed text is made of the reports of the files that can be read. -/
theorem stdout_text (t : FileTree) (is : List Issue) :
    (print t .text is).stdout =
      (readable t is).flatMap fun e => issues false e.2 (is.filter fun i => i.filename == e.1) := by
  simp only [print, Issue.byFile, readable, List.map_map, List.flatMap_map]
  induction Issue.fileNames is with
  | nil => rfl
  | cons name names ih =>
    rw [List.flatMap_cons, ih, List.filterMap_cons]
    cases h : t.readLines name with
    | ok lines => simp [fileText, h, Except.toOption]
    | error e => simp [fileText, h, Except.toOption]

/-- The printed issues with the lines of their files, in the order in which they are printed. -/
def shown (t : FileTree) (is : List Issue) : List (Issue × List Text) :=
  (readable t is).flatMap fun e =>
    (is.filter fun i => i.filename == e.1).map fun i => (i, e.2)

theorem stdout_shown (t : FileTree) (is : List Issue) :
    (print t .text is).stdout = (shown t is).flatMap fun s => issue false s.2 s.1 := by
  rw [stdout_text, shown, List.flatMap_assoc]
  simp only [issues, List.flatMap_map]

theorem readLines_of_mem_shown {s : Issue × List Text} (h : s ∈ shown t is) :
    t.readLines s.1.filename = .ok s.2 := by
  obtain ⟨⟨name, lines⟩, hmem, hs⟩ := List.mem_flatMap.mp h
  obtain ⟨i, hi, rfl⟩ := List.mem_map.mp hs
  obtain rfl := beq_iff_eq.mp (List.mem_filter.mp hi).2
  exact (mem_readable.mp hmem).2

/-- Every issue of a file that can be read is printed, as often as it is there. -/
theorem shown_perm (t : FileTree) (is : List Issue) :
    ((shown t is).map (·.1)).Perm (is.filter fun i => (t.readLines i.filename).isOk) := by
  have hnodup : ((readable t is).map (·.1)).Nodup := by
    refine List.pairwise_map.mpr ((readable_pairwise t is).imp fun {e f} hless heq => ?_)
    rw [heq, Text.less_iff_lt] at hless
    exact List.lt_irrefl _ hless
  have hnames : (shown t is).map (·.1) =
      ((readable t is).map (·.1)).flatMap fun name => is.filter fun i => i.filename == name := by
    simp [shown, List.map_flatMap, List.flatMap_map, Function.comp_def]
  rw [hnames]
  refine (Issue.flatMap_filter_perm hnodup is).trans (.of_eq (List.filter_congr fun i hi => ?_))
  rw [Bool.eq_iff_iff, List.contains_iff_mem, List.mem_map]
  constructor
  · rintro ⟨⟨name, lines⟩, hmem, rfl⟩
    rw [(mem_readable.mp hmem).2]
    rfl
  · intro hok
    cases hlines : t.readLines i.filename with
    | ok lines => exact ⟨(i.filename, lines), mem_readable.mpr ⟨⟨i, hi, rfl⟩, hlines⟩, rfl⟩
    | error e =>
      rw [hlines] at hok
      cases hok

/-- What is printed does not depend on the order in which directories with different files were
done. A text has the reports of the files that can be read, in the order of their names, each file
with its issues in the order in which they came, so that every issue of such a file is printed
once. -/
theorem print_by_file (t : FileTree) :
    (∀ (o : Output) (lists a b : List (List Issue)), lists.Pairwise Issue.Apart →
      a.Perm lists → b.Perm lists → print t o a.flatten = print t o b.flatten) ∧
    ∀ is : List Issue,
      (∃ sources : List (Text × List Text),
        sources.Pairwise (fun e f => Text.less e.1 f.1 = true) ∧
        (∀ name lines, (name, lines) ∈ sources ↔
          (∃ i ∈ is, i.filename = name) ∧ t.readLines name = .ok lines) ∧
        (print t .text is).stdout =
          sources.flatMap fun e => issues false e.2 (is.filter fun i => i.filename == e.1)) ∧
      ∃ printed : List (Issue × List Text),
        (printed.map (·.1)).Perm (is.filter fun i => (t.readLines i.filename).isOk) ∧
        (∀ s ∈ printed, t.readLines s.1.filename = .ok s.2) ∧
        (print t .text is).stdout = printed.flatMap fun s => issue false s.2 s.1 := by
  refine ⟨fun o lists a b hapart ha hb => ?_, fun is => ⟨?_, ?_⟩⟩
  · have hapart : a.Pairwise Issue.Apart := (ha.pairwise_iff fun h => h.symm).mpr hapart
    exact print_eq_of_byFile (Issue.byFile_eq_of_perm (ha.trans hb.symm) hapart)
  · exact ⟨readable t is, readable_pairwise t is, fun _ _ => mem_readable, stdout_text t is⟩
  · exact ⟨shown t is, shown_perm t is, fun s hs => readLines_of_mem_shown hs, stdout_shown t is⟩

/-- An issue on the first line of a file. -/
def issueIn (name : Text) : Issue :=
  ⟨"totality-check", "totality", name, "m", [], ⟨name, 0, 1, 1⟩, ⟨name, 1, 1, 2⟩, .error⟩

/-- A file in a directory and one beside it. -/
def twoFiles : FileTree :=
  ((FileTree.empty "/w").put "p/b.go" (.file "package p")).put "p.go" (.file "package w")

/-- Two directories, of which the second one has a file that comes first and cannot be read. -/
theorem print_two_directories :
    [[issueIn "p/b.go"], [issueIn "a.go", issueIn "p.go"]].Pairwise Issue.Apart ∧
    ∀ o, print twoFiles o [issueIn "p/b.go", issueIn "a.go", issueIn "p.go"] =
      print twoFiles o [issueIn "a.go", issueIn "p.go", issueIn "p/b.go"] := by
  have hapart : [[issueIn "p/b.go"], [issueIn "a.go", issueIn "p.go"]].Pairwise Issue.Apart := by
    rw [List.pairwise_pair]
    unfold Issue.Apart
    decide
  exact ⟨hapart, fun o => (print_by_file _).1 o _ _ _ hapart (.refl _) (.swap _ _ _)⟩

end Report

end CaseCover
