import CaseCover.Engine.Run
import CaseCover.Proofs.Source.ReadFile

/-!
# What an engine reads

An engine checks files that were read into one set of files, together with files of packages that
they import. While packages are loaded, files are only ever added to the set, each behind those that
are there (`FileSet.Extends`). So when all is loaded, every file of a package without faults still
has the map that it was read with (`Workspace.read_of_load?`, `Engine.read_of_load`).
-/

namespace CaseCover

/-- Files are added to a set of files, in order. -/
structure FileSet.Extends (s s' : FileSet) : Prop where
  inOrder : s.InOrder → s'.InOrder
  keeps : s.files ⊆ s'.files

namespace FileSet.Extends

variable {s s' s'' : FileSet}

theorem refl (s : FileSet) : s.Extends s := ⟨id, List.Subset.refl _⟩

theorem trans (h : s.Extends s') (h' : s'.Extends s'') : s.Extends s'' :=
  ⟨fun hs => h'.inOrder (h.inOrder hs), List.Subset.trans h.keeps h'.keeps⟩

/-- A file that starts where the next one may start is added in order. -/
theorem add {m : FileMap} (hm : m.base = s.nextBase) : s.Extends ⟨s.files ++ [m]⟩ :=
  ⟨fun hs => hs.add hm, List.subset_append_left _ _⟩

/-- A run of steps adds files in order if each of them does. -/
theorem foldl {α β : Type} {step : β → α → β} (files : β → FileSet)
    (h : ∀ b a, (files b).Extends (files (step b a))) (as : List α) (b : β) :
    (files b).Extends (files (as.foldl step b)) := by
  induction as generalizing b with
  | nil => exact .refl (files b)
  | cons a as ih => exact (h b a).trans (ih (step b a))

end FileSet.Extends

/-- Sources that were read remain so when more files are added. -/
theorem FileSet.ReadsAll.extend {a b c : FileSet} {fs : List SourceFile} (h : a.ReadsAll fs b)
    (h' : b.Extends c) : a.ReadsAll fs c where
  inOrder := h'.inOrder h.inOrder
  keeps := List.Subset.trans h.keeps h'.keeps
  read f hf := by
    obtain ⟨m, hm⟩ := h.read f hf
    exact ⟨m, hm.mono (h'.inOrder h.inOrder) h'.keeps⟩

/-! ## Reading a package -/

namespace SourceFile

variable {files files' : FileSet} {name text : Text} {f : SourceFile}

theorem parse_extends (h : parse files name text = .ok (f, files')) : files.Extends files' := by
  obtain ⟨m, rfl, hbase, -⟩ := laidOut_of_parse h
  exact .add hbase

theorem parseLeading_extends (files : FileSet) (name text : Text) :
    files.Extends (parseLeading files name text).2 :=
  .add rfl

end SourceFile

namespace ReadPackage

theorem read_extends (files : FileSet) (sources : List NamedSource) :
    files.Extends (read files sources).2 := by
  induction sources generalizing files with
  | nil => exact .refl files
  | cons s rest ih =>
    rw [read]
    split
    · next f files' hparse => exact (SourceFile.parse_extends hparse).trans (ih files')
    · exact (SourceFile.parseLeading_extends files s.name s.content).trans (ih _)

/-- If all sources of a package could be read, each of its files has a map. -/
theorem readsAll_of_sound {files : FileSet} {sources : List NamedSource} (hfiles : files.InOrder)
    (hsound : (read files sources).1.sound = true) :
    files.ReadsAll (read files sources).1.files (read files sources).2 := by
  induction sources generalizing files with
  | nil => exact ⟨hfiles, List.Subset.refl _, nofun⟩
  | cons s rest ih =>
    rw [read] at hsound ⊢
    split
    · next f files' hparse =>
      simp only [hparse] at hsound
      have hread := SourceFile.readsAll_of_parse hfiles hparse
      exact hread.trans (ih hread.inOrder hsound)
    · next fault hparse =>
      simp only [hparse] at hsound
      cases hsound

end ReadPackage

/-! ## Loading packages -/

/-- The lines of an imported package are added as files. -/
theorem Package.byLines_extends (p : Package) (dir : Text) (files : FileSet) :
    files.Extends (p.byLines dir files).2 :=
  FileSet.Extends.foldl Prod.snd (fun _ _ => .add rfl) _ ([], files)

namespace Workspace

variable (w : Workspace)

theorem settle_extends (p : PackageSpec) (r : ReadPackage) (l : Loading) :
    l.files.Extends (w.settle p r l).files := by
  simp only [settle]
  split
  · exact .refl l.files
  · next c hchecked =>
    split
    · exact .refl l.files
    · exact c.package.byLines_extends w.dir l.files

/-- A package is read first, and then what it imports is loaded. -/
theorem exists_of_readWithImports_succ {fuel : Nat}
    (hextends : ∀ (above : List Text) (p : PackageSpec) (l : Loading),
      l.files.Extends (w.readWithImports fuel above p l).2.files)
    (above : List Text) (p : PackageSpec) (l : Loading) :
    ∃ l', w.readWithImports (fuel + 1) above p l =
        ((ReadPackage.read l.files p.sources).1, l') ∧
      (ReadPackage.read l.files p.sources).2.Extends l'.files := by
  refine ⟨_, rfl, FileSet.Extends.foldl Loading.files (fun l i => ?_) _
    { l with files := (ReadPackage.read l.files p.sources).2 }⟩
  split
  · exact .refl l.files
  split
  · exact .refl l.files
  split
  · exact .refl l.files
  · exact (hextends _ _ _).trans (w.settle_extends _ _ _)

/-- Loading a package adds files in order. -/
theorem readWithImports_extends (fuel : Nat) (above : List Text) (p : PackageSpec) (l : Loading) :
    l.files.Extends (w.readWithImports fuel above p l).2.files := by
  induction fuel generalizing above p l with
  | zero => exact .refl l.files
  | succ fuel ih =>
    obtain ⟨l', heq, hextends⟩ := w.exists_of_readWithImports_succ ih above p l
    rw [heq]
    exact (ReadPackage.read_extends l.files p.sources).trans hextends

theorem sound_of_isSound {w : Workspace} {p : PackageSpec} {r : ReadPackage}
    (h : w.isSound p r = true) : r.sound = true := by
  simp only [isSound, Bool.and_eq_true] at h
  exact h.1.1.2

/-- Of a package without faults all files have been read, and they still have their maps when all
that it imports is loaded. -/
theorem read_of_load? {w : Workspace} {p : PackageSpec} {s : Sound} (h : w.load? p = some s) :
    ∀ f ∈ s.sources, ∃ m, s.files.Read f m := by
  obtain ⟨l, hrun, hextends⟩ :=
    w.exists_of_readWithImports_succ (w.readWithImports_extends _) [] p Loading.empty
  have hdepth : w.depth = (FileTree.filesBelow [] w.tree.root).length + 1 + 1 := rfl
  rw [load?, hdepth, hrun] at h
  simp only at h
  split at h
  · cases h
  · next hfaults =>
    split at h
    · cases h
      rw [Bool.not_eq_true, Bool.or_eq_false_iff, Bool.or_eq_false_iff,
        Bool.not_eq_false'] at hfaults
      have hread := ReadPackage.readsAll_of_sound FileSet.inOrder_empty
        (sound_of_isSound hfaults.1.1)
      exact (hread.extend hextends).read
    · cases h

end Workspace

namespace Engine

/-- The package that is checked last is one of those that were read. -/
theorem exists_mem_of_checkPackages {w : World} {packages : List (Text × List SourceFile)}
    {c : Checked} {fs : List SourceFile} (h : checkPackages w packages = .ok (some (c, fs))) :
    ∃ path, (path, fs) ∈ packages := by
  fun_induction checkPackages w packages with
  | case1 => cases h
  | case2 w path fs' =>
    obtain ⟨c', -, heq⟩ := ok_of_bind h
    cases heq
    exact ⟨path, List.mem_cons_self⟩
  | case3 w path fs' rest hrest ih =>
    obtain ⟨c', -, h⟩ := ok_of_bind h
    obtain ⟨path', hmem⟩ := ih c' h
    exact ⟨path', List.mem_cons_of_mem _ hmem⟩

/-- The files of the package that an engine loads have been read. -/
theorem read_of_load {ps : List PackageSource} {c : Checked} {fs : List SourceFile}
    {files : FileSet} (h : load ps = .ok (some (c, fs), files)) :
    ∀ f ∈ fs, ∃ m, files.Read f m := by
  unfold load at h
  split at h
  · cases h
  · next packages files' hread =>
    split at h
    · cases h
    · next last hcheck =>
      cases h
      obtain ⟨path, hmem⟩ := exists_mem_of_checkPackages hcheck
      have hall := (readsAll_of_readPackages FileSet.inOrder_empty hread).read
      exact fun f hf => hall f (List.mem_flatMap.mpr ⟨(path, fs), hmem, hf⟩)

end Engine

end CaseCover
