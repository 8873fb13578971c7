import CaseCover.Cache
import CaseCover.Proofs.FileTree.Entry
import CaseCover.Proofs.Path.Glob
import CaseCover.Proofs.Text.Order

/-!
# What a fingerprint sees

The files that go into a fingerprint are found by a pattern that starts with the path of the
directory. Where that path stands for itself (`Literal`), they are the source files directly in the
directory (`mem_sources_iff`), in the order of their paths, and if one of them cannot be read there
is no fingerprint (`exists_sources_iff`). So a directory with a fingerprint has the same list of
files at another moment exactly if it has the same names and contents (`sources_eq_iff`).
-/

namespace CaseCover

namespace FileTree

/-- The entries of the directory at a path; nothing else has any. -/
def entriesAt (t : FileTree) (p : Text) : List (Text × FileNode) :=
  match t.stat p with
  | .ok n => n.entries
  | .error _ => []

/-- The entries with the name of a source file. -/
def sourceEntries (t : FileTree) (dir : Text) : List (Text × FileNode) :=
  (t.entriesAt dir).filter fun e => Text.endsWith e.1 sourceExt

/-- The source files directly in a directory, with what is read in them. A directory or a loose link
with the name of a source file cannot be read. -/
def sourceFiles (t : FileTree) (dir : Text) : List (Text × Option Text) :=
  (t.sourceEntries dir).map fun e => (e.1, (t.content (Path.join [dir, e.1])).toOption)

/-- The source files of a directory have the same names and contents. -/
def SameFiles (t u : FileTree) (dir : Text) : Prop :=
  ∀ f, f ∈ t.sourceFiles dir ↔ f ∈ u.sourceFiles dir

/-- Every source file of a directory can be read. -/
def Readable (t : FileTree) (dir : Text) : Prop := ∀ f ∈ t.sourceFiles dir, f.2.isSome = true

/-- The entries of a directory have names of their own, and names that an entry can have. -/
structure WellNamed (t : FileTree) (dir : Text) : Prop where
  nodup : ((t.entriesAt dir).map (·.1)).Nodup
  named : ∀ e ∈ t.entriesAt dir, IsEntryName e.1

/-- The path of a directory stands for itself in a pattern: none of its bytes is special, and the
cleaned path, which may pass over fewer links, leads to the same entries. -/
structure Literal (t : FileTree) (dir : Text) : Prop where
  noMeta : Path.hasMeta (Path.clean dir) = false
  entriesAt_clean : t.entriesAt (Path.clean dir) = t.entriesAt dir

variable {t u : FileTree} {dir : Text}

theorem SameFiles.refl (t : FileTree) (dir : Text) : SameFiles t t dir := fun _ => Iff.rfl

theorem SameFiles.symm (h : SameFiles t u dir) : SameFiles u t dir := fun f => (h f).symm

theorem SameFiles.trans {v : FileTree} (h : SameFiles t u dir) (h' : SameFiles u v dir) :
    SameFiles t v dir := fun f => (h f).trans (h' f)

/-- A source file has the name of an entry, and the content that is read at its path. -/
theorem mem_sourceFiles {f : Text × Option Text} (hf : f ∈ t.sourceFiles dir) :
    (∃ n, (f.1, n) ∈ t.entriesAt dir) ∧ (t.content (Path.join [dir, f.1])).toOption = f.2 := by
  obtain ⟨⟨name, n⟩, he, rfl⟩ := List.mem_map.mp hf
  exact ⟨⟨n, (List.mem_filter.mp he).1⟩, rfl⟩

/-- The source files of a well-named directory have names of entries. -/
theorem WellNamed.of_mem_sourceFiles (h : WellNamed t dir) {f : Text × Option Text}
    (hf : f ∈ t.sourceFiles dir) : IsEntryName f.1 := by
  obtain ⟨⟨n, he⟩, -⟩ := mem_sourceFiles hf
  exact h.named _ he

/-! ## Results of monadic searches -/

theorem filterM_ok {α ε : Type} {f : α → Except ε Bool} {g : α → Bool} {l : List α}
    (h : ∀ x ∈ l, f x = .ok (g x)) : l.filterM f = .ok (l.filter g) := by
  have haux : ∀ (l acc : List α), (∀ x ∈ l, f x = .ok (g x)) →
      l.filterAuxM f acc = .ok ((l.filter g).reverse ++ acc) := by
    intro l
    induction l with
    | nil => intro acc _; rfl
    | cons x l ih =>
      intro acc h
      rw [List.filterAuxM, h x List.mem_cons_self]
      have hrest := ih (cond (g x) (x :: acc) acc) fun y hy => h y (List.mem_cons_of_mem x hy)
      refine hrest.trans ?_
      cases hx : g x <;> simp [hx]
  rw [List.filterM, haux l [] h]
  simp [pure, Except.pure, bind, Except.bind]

theorem mapM_cons_ok {α β ε : Type} {f : α → Except ε β} {x : α} {l : List α} {ls : List β} :
    (x :: l).mapM f = .ok ls ↔ ∃ y ys, f x = .ok y ∧ l.mapM f = .ok ys ∧ ls = y :: ys := by
  rw [List.mapM_cons]
  cases f x with
  | error e => simp [bind, Except.bind]
  | ok y =>
    cases l.mapM f with
    | error e => simp [bind, Except.bind]
    | ok ys => simp [bind, Except.bind, pure, Except.pure, eq_comm]

/-- A list of computations gives results exactly if each of them does. -/
theorem exists_mapM_iff {α β ε : Type} {f : α → Except ε β} {l : List α} :
    (∃ ls, l.mapM f = .ok ls) ↔ ∀ x ∈ l, ∃ y, f x = .ok y := by
  induction l with
  | nil => simp [pure, Except.pure]
  | cons x l ih =>
    simp only [mapM_cons_ok, List.forall_mem_cons, ← ih]
    constructor
    · rintro ⟨_, y, ys, hy, hys, rfl⟩
      exact ⟨⟨y, hy⟩, ys, hys⟩
    · rintro ⟨⟨y, hy⟩, ys, hys⟩
      exact ⟨y :: ys, y, ys, hy, hys, rfl⟩

theorem mem_mapM_iff {α β ε : Type} {f : α → Except ε β} {l : List α} {ls : List β}
    (h : l.mapM f = .ok ls) {y : β} : y ∈ ls ↔ ∃ x ∈ l, f x = .ok y := by
  induction l generalizing ls with
  | nil =>
    cases h
    simp
  | cons x l ih =>
    obtain ⟨z, ys, hz, hys, rfl⟩ := mapM_cons_ok.mp h
    simp [ih hys, hz, eq_comm]

theorem mapM_congr {α β ε : Type} {f g : α → Except ε β} {l : List α}
    (h : ∀ x ∈ l, f x = g x) : l.mapM f = l.mapM g := by
  induction l with
  | nil => rfl
  | cons x l ih =>
    rw [List.mapM_cons, List.mapM_cons, h x List.mem_cons_self,
      ih fun y hy => h y (List.mem_cons_of_mem x hy)]

/-! ## The paths that are found -/

theorem isPlain_sourcePattern : Path.IsPlain (utf8 "*.go") := by decide

/-- The directory part of a pattern, as it is looked up. -/
def patternDir (lead : Text) : Text :=
  if lead.isEmpty then utf8 "." else if lead == [Path.separator] then lead else lead.dropLast

/-- A pattern for names behind a literal path is looked up in the directory at that path. -/
theorem glob_append (lead : Text) (hlead : Path.hasMeta lead = false)
    (hsplit : Path.split (lead ++ utf8 "*.go") = (lead, utf8 "*.go"))
    (hdir : Path.hasMeta (patternDir lead) = false) :
    t.glob (lead ++ utf8 "*.go") = t.globIn "*.go" (patternDir lead) := by
  obtain ⟨b, hwell⟩ : ∃ b, Path.glob (lead ++ utf8 "*.go") [] = .ok b :=
    Path.glob_literal_star hlead (by decide) (by decide)
  have hmeta : Path.hasMeta (lead ++ utf8 "*.go") = true := by
    rw [Path.hasMeta_append, hlead]
    decide
  rw [glob, globWithin, hwell, hmeta, hsplit]
  change (if !Path.hasMeta (patternDir lead) then t.globIn "*.go" (patternDir lead) else _) = _
  rw [hdir]
  rfl

/-- The source files of a directory are looked up in the directory at its cleaned path. -/
theorem glob_of_literal (hdir : Path.hasMeta (Path.clean dir) = false) :
    t.glob (Path.join [dir, "*.go"]) = t.globIn "*.go" (Path.clean dir) := by
  rcases Path.join_entry dir isPlain_sourcePattern with ⟨hclean, hjoin⟩ | ⟨hclean, hjoin⟩ |
    ⟨hne, -, hjoin⟩
  · rw [hjoin, hclean]
    exact glob_append [] rfl (by decide) (by decide)
  · rw [hjoin, hclean]
    exact glob_append [Path.separator] (by decide) (by decide) (by decide)
  · have hlead : Path.hasMeta (Path.clean dir ++ [Path.separator]) = false := by
      rw [Path.hasMeta_append, hdir]
      decide
    have hpattern : patternDir (Path.clean dir ++ [Path.separator]) = Path.clean dir := by
      simp [patternDir, hne]
    have hsplit := Path.split_append (Path.clean dir) isPlain_sourcePattern.noSeparator
    have heq : Path.clean dir ++ Path.separator :: utf8 "*.go" =
      Path.clean dir ++ [Path.separator] ++ utf8 "*.go" := by simp
    rw [heq] at hsplit
    rw [hjoin, heq, glob_append _ hlead hsplit (by rw [hpattern]; exact hdir), hpattern]

theorem globIn_eq (pattern dir : Text) :
    t.globIn pattern dir = do
      let found ← (t.entriesAt dir).filterM fun e => Path.glob pattern e.1
      return found.map fun e => Path.join [dir, e.1] := by
  rw [globIn, entriesAt]
  cases t.stat dir with
  | error e => rfl
  | ok n =>
    cases n with
    | file content => rfl
    | link target => rfl
    | dir es => rfl

/-- In a directory whose path has no special characters, the pattern matches the source files. -/
theorem globIn_of_literal (hdir : Literal t dir) (h : WellNamed t dir) :
    t.globIn "*.go" (Path.clean dir) =
      .ok ((t.sourceEntries dir).map fun e => Path.join [Path.clean dir, e.1]) := by
  have hfilter : (t.entriesAt dir).filterM (fun e => Path.glob (utf8 "*.go") e.1) =
      .ok (t.sourceEntries dir) :=
    filterM_ok fun e he => Path.glob_star_literal (by decide) (by decide) (h.named e he).noSeparator
  rw [globIn_eq, hdir.entriesAt_clean, hfilter]
  rfl

/-- The pattern finds the paths of the source files directly in the directory. -/
theorem glob_sourceFiles (hdir : Literal t dir) (h : WellNamed t dir) :
    t.glob (Path.join [dir, "*.go"]) =
      .ok ((t.sourceFiles dir).map fun f => Path.join [dir, f.1]) := by
  rw [glob_of_literal hdir.noMeta, globIn_of_literal hdir h, sourceFiles, List.map_map]
  refine congrArg Except.ok (List.map_congr_left fun e he => ?_)
  exact Path.join_clean dir (h.named e (List.mem_filter.mp he).1).toIsPlain

/-! ## Their contents -/

/-- A file is named by its base, and its content is read at its path. -/
theorem namedContent_eq_ok {p : Text} {f : Text × Text} :
    Fingerprint.namedContent t p = .ok f ↔ Path.base p = f.1 ∧ t.content p = .ok f.2 := by
  obtain ⟨name, content⟩ := f
  rw [Fingerprint.namedContent, FileTree.content]
  cases t.openNode p with
  | error e => simp [bind, Except.bind]
  | ok n =>
    cases n with
    | file content' => simp [bind, Except.bind, pure, Except.pure]
    | link target => simp [bind, Except.bind, throw, throwThe, MonadExceptOf.throw]
    | dir es => simp [bind, Except.bind, throw, throwThe, MonadExceptOf.throw]

/-- The paths of the source files of a directory, in order. -/
def sourcePaths (t : FileTree) (dir : Text) : List Text :=
  Text.sort ((t.sourceFiles dir).map fun f => Path.join [dir, f.1])

theorem mem_sourcePaths {p : Text} :
    p ∈ t.sourcePaths dir ↔ ∃ f ∈ t.sourceFiles dir, Path.join [dir, f.1] = p := by
  rw [sourcePaths, (Text.sort_perm _).mem_iff, List.mem_map]

/-- The files of a fingerprint are read at the paths of the source files, in their order. -/
theorem sources_eq_mapM (hdir : Literal t dir) (h : WellNamed t dir) :
    Fingerprint.sources t dir = (t.sourcePaths dir).mapM (Fingerprint.namedContent t) := by
  rw [Fingerprint.sources, glob_sourceFiles hdir h]
  rfl

/-- The path of a source file leads to its name and content. -/
theorem namedContent_of_mem (h : WellNamed t dir) {f : Text × Option Text}
    (hf : f ∈ t.sourceFiles dir) {g : Text × Text} :
    Fingerprint.namedContent t (Path.join [dir, f.1]) = .ok g ↔ f = (g.1, some g.2) := by
  rw [namedContent_eq_ok, Path.base_join dir (h.of_mem_sourceFiles hf).toIsPlain, Prod.ext_iff,
    ← (mem_sourceFiles hf).2]
  refine and_congr_right fun _ => ?_
  cases t.content (Path.join [dir, f.1]) <;> simp [Except.toOption]

/-- A directory has a fingerprint exactly if all its source files can be read. -/
theorem exists_sources_iff (hdir : Literal t dir) (h : WellNamed t dir) :
    (∃ ls, Fingerprint.sources t dir = .ok ls) ↔ Readable t dir := by
  rw [sources_eq_mapM hdir h, exists_mapM_iff]
  constructor
  · intro hread f hf
    obtain ⟨g, hg⟩ := hread _ (mem_sourcePaths.mpr ⟨f, hf, rfl⟩)
    rw [(namedContent_of_mem h hf).mp hg]
    rfl
  · intro hread p hp
    obtain ⟨f, hf, rfl⟩ := mem_sourcePaths.mp hp
    obtain ⟨content, hcontent⟩ := Option.isSome_iff_exists.mp (hread f hf)
    exact ⟨(f.1, content), (namedContent_of_mem h hf).mpr (Prod.ext rfl hcontent)⟩

/-- The files that go into the fingerprint are the source files directly in the directory. -/
theorem mem_sources_iff (hdir : Literal t dir) (h : WellNamed t dir) {ls : List (Text × Text)}
    (hls : Fingerprint.sources t dir = .ok ls) {g : Text × Text} :
    g ∈ ls ↔ (g.1, some g.2) ∈ t.sourceFiles dir := by
  rw [sources_eq_mapM hdir h] at hls
  rw [mem_mapM_iff hls]
  constructor
  · rintro ⟨p, hp, hg⟩
    obtain ⟨f, hf, rfl⟩ := mem_sourcePaths.mp hp
    rw [← (namedContent_of_mem h hf).mp hg]
    exact hf
  · intro hg
    exact ⟨_, mem_sourcePaths.mpr ⟨_, hg, rfl⟩, (namedContent_of_mem h hg).mpr rfl⟩

/-! ## Equal lists of files -/

theorem sourceFiles_nodup (h : WellNamed t dir) : (t.sourceFiles dir).Nodup := by
  have hnames : ((t.sourceFiles dir).map (·.1)).Nodup := by
    rw [sourceFiles, List.map_map]
    exact h.nodup.sublist (List.filter_sublist.map _)
  exact List.Pairwise.of_map _ (fun f g hne heq => hne (heq ▸ rfl)) hnames

/-- Directories with the same source files have the same paths in the same order. -/
theorem sourcePaths_eq_of_sameFiles (ht : WellNamed t dir) (hu : WellNamed u dir)
    (h : SameFiles t u dir) : t.sourcePaths dir = u.sourcePaths dir := by
  have hfiles : (t.sourceFiles dir).Perm (u.sourceFiles dir) :=
    (List.perm_ext_iff_of_nodup (sourceFiles_nodup ht) (sourceFiles_nodup hu)).mpr h
  exact Text.sort_eq_of_perm (hfiles.map _)

/-- A directory that has a fingerprint has the same list of files at another moment exactly if it
has the same files. -/
theorem sources_eq_iff (htdir : Literal t dir) (hudir : Literal u dir) (ht : WellNamed t dir)
    (hu : WellNamed u dir) {ls : List (Text × Text)} (hls : Fingerprint.sources u dir = .ok ls) :
    Fingerprint.sources t dir = Fingerprint.sources u dir ↔ SameFiles t u dir := by
  have huread := (exists_sources_iff hudir hu).mp ⟨ls, hls⟩
  constructor
  · intro heq f
    have hls' := heq.trans hls
    have htread := (exists_sources_iff htdir ht).mp ⟨ls, hls'⟩
    obtain ⟨name, content⟩ := f
    -- what cannot be read is in neither directory, since both have fingerprints
    cases content with
    | none => exact ⟨fun hf => absurd (htread _ hf) nofun, fun hf => absurd (huread _ hf) nofun⟩
    | some content =>
      have hmem : (name, content) ∈ ls ↔ (name, some content) ∈ t.sourceFiles dir :=
        mem_sources_iff htdir ht hls'
      exact hmem.symm.trans (mem_sources_iff hudir hu hls)
  · intro hsame
    rw [sources_eq_mapM htdir ht, sources_eq_mapM hudir hu,
      sourcePaths_eq_of_sameFiles ht hu hsame]
    refine mapM_congr fun p hp => ?_
    obtain ⟨f, hf, rfl⟩ := mem_sourcePaths.mp hp
    obtain ⟨content, hcontent⟩ := Option.isSome_iff_exists.mp (huread f hf)
    have hthere : Fingerprint.namedContent u (Path.join [dir, f.1]) = .ok (f.1, content) :=
      (namedContent_of_mem hu hf).mpr (Prod.ext rfl hcontent)
    rw [hthere]
    exact (namedContent_of_mem ht ((hsame f).mpr hf)).mpr (Prod.ext rfl hcontent)

/-! ## Regular files -/

theorem lookup_of_mem {es : List (Text × FileNode)} {name : Text} {n : FileNode}
    (hnodup : (es.map (·.1)).Nodup) (he : (name, n) ∈ es) : es.lookup name = some n := by
  obtain ⟨front, back, rfl⟩ := List.append_of_mem he
  rw [List.map_append, List.map_cons, List.nodup_append] at hnodup
  refine List.lookup_eq_some_iff.mpr ⟨front, back, rfl, fun p hp => ?_⟩
  have hne := hnodup.2.2 p.1 (List.mem_map_of_mem hp) name List.mem_cons_self
  simpa using hne.symm

theorem find_of_mem_entriesAt {p : Text} {e : Text × FileNode} (he : e ∈ t.entriesAt p) :
    ∃ q, t.find true p = .ok (q, .dir (t.entriesAt p)) := by
  rw [entriesAt, stat] at he ⊢
  cases hfind : t.find true p with
  | error err =>
    rw [hfind] at he
    cases he
  | ok found =>
    obtain ⟨q, n⟩ := found
    rw [hfind] at he
    cases n with
    | file content => cases he
    | link target => cases he
    | dir es => exact ⟨q, rfl⟩

/-- What is read at the path of an entry that is a regular file is the content of this file. -/
theorem content_of_regular (hclean : t.entriesAt (Path.clean dir) = t.entriesAt dir)
    (h : WellNamed t dir) {name content : Text} (he : (name, .file content) ∈ t.entriesAt dir) :
    t.content (Path.join [dir, name]) = .ok content := by
  have hlookup := lookup_of_mem h.nodup he
  have hname := h.named _ he
  rw [← hclean] at he hlookup
  obtain ⟨q, hplace⟩ := find_of_mem_entriesAt he
  rw [FileTree.content, openNode, find_join_entry hplace hname hlookup]
  rfl

theorem wellNamed_of_single {e : Text × FileNode} (h : t.entriesAt dir = [e])
    (hname : IsEntryName e.1) : t.WellNamed dir where
  nodup := by simp [h]
  named := by simpa [h] using hname

/-- The only entry of a directory, if it is a source file, is its only source file. -/
theorem sourceFiles_of_single {name content : Text} (h : t.entriesAt dir = [(name, .file content)])
    (hclean : t.entriesAt (Path.clean dir) = t.entriesAt dir) (hname : IsEntryName name)
    (hends : Text.endsWith name sourceExt = true) :
    t.sourceFiles dir = [(name, some content)] := by
  have hcontent := content_of_regular hclean (wellNamed_of_single h hname)
    (by rw [h]; exact List.mem_singleton_self (name, FileNode.file content))
  simp [sourceFiles, sourceEntries, h, hends, hcontent, Except.toOption]

end FileTree

end CaseCover
