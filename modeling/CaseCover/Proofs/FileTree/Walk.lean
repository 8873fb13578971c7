import CaseCover.FileTree.Walk
import CaseCover.Proofs.Path.Below
import CaseCover.Proofs.Text.Order
import Mathlib.Logic.ExistsUnique

/-!
# Directories with source files

A directory below a root is told by the names that lead to it, and the files and links directly in
it are told by their names (`HasLeaf`). The walk makes a path of all these names, one after the
other, and it comes to every file and link that does not lie behind a name that is passed over
(`mem_leavesOf_iff`). So the directories that it collects are those that hold a source file and do
not lie behind such a name, each of them once (`sourceDirs_hold_sources`).
-/

namespace CaseCover.FileTree

variable {es : List (Text × FileNode)} {names : List Text} {name path root : Text}

/-- The directory that `names` lead to, from the one with the given entries, directly holds
something of this name that is no directory. -/
inductive HasLeaf : List (Text × FileNode) → List Text → Text → Prop
  | directly {es : List (Text × FileNode)} {name : Text} {n : FileNode} :
      (name, n) ∈ es → n.isDir = false → HasLeaf es [] name
  | within {es inner : List (Text × FileNode)} {d : Text} {names : List Text} {name : Text} :
      (d, .dir inner) ∈ es → HasLeaf inner names name → HasLeaf es (d :: names) name

/-- The files and links below a directory, and the directories on the way to them, have names that
an entry can have. -/
def IsWellNamed (es : List (Text × FileNode)) : Prop :=
  ∀ names name, HasLeaf es names name → Path.IsPlain name ∧ ∀ d ∈ names, Path.IsPlain d

/-- The names of directories below the root that are passed over. -/
def IsPassedOver (d : Text) : Prop :=
  d = utf8 "vendor" ∨ d = utf8 "testdata" ∨ utf8 "." <+: d ∨ utf8 "_" <+: d

/-- The walk enters directories that it does not pass over. -/
theorem isSkippedName_eq_false_iff {d : Text} : isSkippedName d = false ↔ ¬ IsPassedOver d := by
  rw [IsPassedOver, ← Bool.not_eq_true, isSkippedName]
  simp only [Bool.or_eq_true, beq_iff_eq, Text.startsWith, List.isPrefixOf_iff_prefix, or_assoc]

/-- A file is a source if its name ends with the extension of sources. -/
theorem isSourceName_iff (hname : Path.IsPlain name) :
    isSourceName name = true ↔ sourceExt <:+ name := by
  rw [isSourceName, beq_iff_eq]
  exact Path.ext_eq_iff hname.noSeparator (by decide)

/-! ## What a directory holds -/

theorem HasLeaf.cons (h : HasLeaf es names name) (p : Text × FileNode) :
    HasLeaf (p :: es) names name := by
  cases h with
  | directly hmem hleaf => exact .directly (List.mem_cons_of_mem p hmem) hleaf
  | within hmem hwithin => exact .within (List.mem_cons_of_mem p hmem) hwithin

/-- A directory adds what it holds, reached by its name. -/
theorem hasLeaf_dir_cons_iff {d : Text} {inner : List (Text × FileNode)} :
    HasLeaf ((d, .dir inner) :: es) names name ↔
      (∃ rest, names = d :: rest ∧ HasLeaf inner rest name) ∨ HasLeaf es names name := by
  constructor
  · rintro (⟨hmem, hleaf⟩ | ⟨hmem, hwithin⟩)
    · rcases List.mem_cons.mp hmem with heq | hmem
      · cases heq
        cases hleaf
      · exact .inr (.directly hmem hleaf)
    · rcases List.mem_cons.mp hmem with heq | hmem
      · cases heq
        exact .inl ⟨_, rfl, hwithin⟩
      · exact .inr (.within hmem hwithin)
  · rintro (⟨rest, rfl, hwithin⟩ | hrest)
    · exact .within List.mem_cons_self hwithin
    · exact hrest.cons _

theorem hasLeaf_leaf_cons_iff {c : Text} {n : FileNode} (hn : n.isDir = false) :
    HasLeaf ((c, n) :: es) names name ↔ names = [] ∧ name = c ∨ HasLeaf es names name := by
  constructor
  · rintro (⟨hmem, hleaf⟩ | ⟨hmem, hwithin⟩)
    · rcases List.mem_cons.mp hmem with heq | hmem
      · cases heq
        exact .inl ⟨rfl, rfl⟩
      · exact .inr (.directly hmem hleaf)
    · rcases List.mem_cons.mp hmem with heq | hmem
      · cases heq
        cases hn
      · exact .inr (.within hmem hwithin)
  · rintro (⟨rfl, rfl⟩ | hrest)
    · exact .directly List.mem_cons_self hn
    · exact hrest.cons _

theorem not_hasLeaf_nil : ¬ HasLeaf [] names name := by
  rintro (⟨hmem, -⟩ | ⟨hmem, -⟩) <;> cases hmem

/-! ## The walk -/

/-- The path that the walk makes of names below a path. -/
def walked (path : Text) (names : List Text) : Text :=
  names.foldl (fun p c => Path.join [p, c]) path

/-- The walk comes to what does not lie behind a name that is passed over. -/
theorem mem_leavesOf_iff {p : Text} :
    p ∈ leavesOf path es ↔ ∃ names name, HasLeaf es names name ∧
      (∀ d ∈ names, ¬ IsPassedOver d) ∧ p = walked path (names ++ [name]) := by
  fun_induction leavesOf path es with
  | case1 path => simp [not_hasLeaf_nil]
  | case2 path d inner rest ihinner ihrest =>
    rw [List.mem_append, ihrest]
    constructor
    · rintro (hin | ⟨names, name, hleaf, hnames, rfl⟩)
      · cases hd : isSkippedName d with
        | true => simp [hd] at hin
        | false =>
          rw [hd] at hin
          obtain ⟨names, name, hleaf, hnames, rfl⟩ := ihinner.mp hin
          refine ⟨d :: names, name, hasLeaf_dir_cons_iff.mpr (.inl ⟨names, rfl, hleaf⟩), ?_, rfl⟩
          exact List.forall_mem_cons.mpr ⟨isSkippedName_eq_false_iff.mp hd, hnames⟩
      · exact ⟨names, name, hasLeaf_dir_cons_iff.mpr (.inr hleaf), hnames, rfl⟩
    · rintro ⟨names, name, hleaf, hnames, rfl⟩
      rcases hasLeaf_dir_cons_iff.mp hleaf with ⟨below, rfl, hwithin⟩ | hleaf
      · obtain ⟨hd, hbelow⟩ := List.forall_mem_cons.mp hnames
        left
        rw [isSkippedName_eq_false_iff.mpr hd]
        exact ihinner.mpr ⟨below, name, hwithin, hbelow, rfl⟩
      · exact .inr ⟨names, name, hleaf, hnames, rfl⟩
  | case3 path c n rest hdir ihrest =>
    have hn : n.isDir = false := by
      cases n with
      | dir inner => exact (hdir inner rfl).elim
      | _ => rfl
    rw [List.mem_cons, ihrest]
    simp only [hasLeaf_leaf_cons_iff hn, or_and_right, exists_or, and_assoc, exists_and_left,
      exists_eq_left, List.not_mem_nil, false_imp_iff, implies_true, true_and]
    exact Iff.rfl

theorem walked_append (path : Text) (names : List Text) (name : Text) :
    walked path (names ++ [name]) = Path.join [walked path names, name] :=
  List.foldl_append

/-- A path that the walk makes ends in the name of the file, and stands for its directory. -/
theorem walked_leaf (hroot : root ≠ []) (hname : Path.IsPlain name)
    (hnames : ∀ d ∈ names, Path.IsPlain d) :
    (isSourceName (walked root (names ++ [name])) = true ↔ sourceExt <:+ name) ∧
      Path.dir (walked root (names ++ [name])) = Path.join (root :: names) := by
  rw [walked_append, ← isSourceName_iff hname, isSourceName, Path.ext_join _ hname,
    Path.dir_join _ hname]
  exact ⟨Iff.rfl, Path.clean_foldl_join hroot hnames⟩

/-! ## The directories -/

/-- The directory that `names` lead to directly holds a source file, and the walk comes there. -/
def IsSourceDir (es : List (Text × FileNode)) (names : List Text) : Prop :=
  (∃ name, HasLeaf es names name ∧ utf8 ".go" <:+ name) ∧ ∀ d ∈ names, ¬ IsPassedOver d

/-- Directories with sources are reached by plain names. -/
theorem IsSourceDir.isPlain (h : IsSourceDir es names) (hes : IsWellNamed es) :
    ∀ d ∈ names, Path.IsPlain d := by
  obtain ⟨⟨name, hleaf, -⟩, -⟩ := h
  exact (hes names name hleaf).2

/-- The directories of the sources that the walk finds are those with sources in them. -/
theorem mem_dirs_iff (hroot : root ≠ []) (hes : IsWellNamed es) {dir : Text} :
    dir ∈ ((leavesOf root es).filter isSourceName).map Path.dir ↔
      ∃ names, IsSourceDir es names ∧ Path.join (root :: names) = dir := by
  rw [List.mem_map]
  constructor
  · rintro ⟨p, hp, rfl⟩
    obtain ⟨hp, hsource⟩ := List.mem_filter.mp hp
    obtain ⟨names, name, hleaf, hnames, rfl⟩ := mem_leavesOf_iff.mp hp
    obtain ⟨hname, hplain⟩ := hes names name hleaf
    obtain ⟨hends, hdir⟩ := walked_leaf hroot hname hplain
    exact ⟨names, ⟨⟨name, hleaf, hends.mp hsource⟩, hnames⟩, hdir.symm⟩
  · rintro ⟨names, ⟨⟨name, hleaf, hends⟩, hnames⟩, rfl⟩
    obtain ⟨hname, hplain⟩ := hes names name hleaf
    obtain ⟨hsource, hdir⟩ := walked_leaf hroot hname hplain
    refine ⟨walked root (names ++ [name]), List.mem_filter.mpr ⟨?_, hsource.mpr hends⟩, hdir⟩
    exact mem_leavesOf_iff.mpr ⟨names, name, hleaf, hnames, rfl⟩

/-- The source directories are those of the leaves, sorted and each once. -/
theorem sourceDirs_of_dir {t : FileTree} (h : t.lstat root = .ok (.dir es)) :
    t.sourceDirs root =
      .ok (Text.sort (((leavesOf root es).filter isSourceName).map Path.dir).eraseDups) := by
  rw [sourceDirs, h]
  rfl

theorem ne_nil_of_lstat {t : FileTree} {n : FileNode} (h : t.lstat root = .ok n) : root ≠ [] := by
  rintro rfl
  cases h

/-- Below a directory are found, in strict order, the directories that directly hold a source file
and do not lie behind a name that is passed over, whatever the name of the directory itself. Each of
them is found under one path, which is that of no other. -/
theorem sourceDirs_hold_sources {t : FileTree} (hroot : t.lstat root = .ok (.dir es))
    (hes : IsWellNamed es) :
    ∃ dirs, t.sourceDirs root = .ok dirs ∧ dirs.Pairwise (· < ·) ∧
      ∀ dir, dir ∈ dirs ↔ ∃! names, IsSourceDir es names ∧ Path.join (root :: names) = dir := by
  have hne := ne_nil_of_lstat hroot
  refine ⟨_, sourceDirs_of_dir hroot, ?_, fun dir => ?_⟩
  · exact (Text.sort_eraseDups_pairwise _).imp Text.less_iff_lt.mp
  · rw [Text.mem_sort_eraseDups, mem_dirs_iff hne hes]
    refine ⟨fun ⟨names, hnames, hjoin⟩ => ⟨names, ⟨hnames, hjoin⟩, ?_⟩, ExistsUnique.exists⟩
    rintro names' ⟨hnames', hjoin'⟩
    exact Path.join_cons_inj hne (hnames'.isPlain hes) (hnames.isPlain hes)
      (hjoin'.trans hjoin.symm)

/-- A tree with source files in it, behind a name that is passed over, and as a link. -/
def nested : List (Text × FileNode) :=
  [("_old", .dir [("a.go", .file "package a\n")]), ("a.go", .link "p/q/b.go"),
    ("p", .dir [("q", .dir [("b.go", .file "package q\n"), ("c.go", .file "package q\n")]),
      ("testdata", .dir [("d.go", .file "package d\n")])]),
    ("r", .dir [("notes.txt", .file [])])]

theorem nested_isWellNamed : IsWellNamed nested := by
  have hfile (content : Text) : (FileNode.file content).isDir = false := rfl
  have hlink (target : Text) : (FileNode.link target).isDir = false := rfl
  intro names name h
  simp only [nested, hasLeaf_dir_cons_iff, hasLeaf_leaf_cons_iff, hfile, hlink, not_hasLeaf_nil,
    or_false] at h
  rcases h with ⟨_, rfl, rfl, rfl⟩ | ⟨rfl, rfl⟩ | ⟨_, rfl, h⟩ | ⟨_, rfl, rfl, rfl⟩
  · decide
  · decide
  · rcases h with ⟨_, rfl, ⟨rfl, rfl⟩ | ⟨rfl, rfl⟩⟩ | ⟨_, rfl, rfl, rfl⟩ <;> decide
  · decide

/-- The root may have a name that is passed over below it. -/
theorem sourceDirs_nested :
    (FileTree.mk (.dir [("w", .dir [("vendor", .dir nested)])]) "/w").lstat "vendor" =
        .ok (.dir nested) ∧ IsWellNamed nested ∧
      ∃ dirs,
        (FileTree.mk (.dir [("w", .dir [("vendor", .dir nested)])]) "/w").sourceDirs "vendor" =
          .ok dirs ∧ dirs.Pairwise (· < ·) ∧
        ∀ dir, dir ∈ dirs ↔
          ∃! names, IsSourceDir nested names ∧ Path.join ("vendor" :: names) = dir :=
  ⟨rfl, nested_isWellNamed, sourceDirs_hold_sources rfl nested_isWellNamed⟩

end CaseCover.FileTree
