import CaseCover.Proofs.Source.ReadStmts
import CaseCover.Proofs.Source.Spacing
import CaseCover.Proofs.Suppression.Lines

/-!
# Where the parts of a file stand

The declarations of a file that was read stand one after the other (`Decl.Fits`), so its statements
are laid out, and its functions are in order (`SourceFile.LaidOut`). The rules hold at every depth,
by induction on the bound of the depth (`rules_fitting`).

The files of an analysis are read into one set of files. There each of them has a map that says where
it is laid out (`FileSet.Read`).
-/

namespace CaseCover

open Token (Spaced)

/-- A declaration stands between two positions. -/
structure Decl.Fits (lo : Pos) (d : Decl) (hi : Pos) : Prop where
  laidOut : LaidOut lo d.statements hi
  function : ∀ fn, d = .func fn → lo ≤ fn.pos ∧ fn.pos < fn.stop ∧ fn.stop ≤ hi

/-- The parts of a file stand between two positions: its package clause, its statements as `LaidOut`
says, and its functions one after the other. -/
structure SourceFile.LaidOut (lo : Pos) (f : SourceFile) (hi : Pos) : Prop where
  package : lo ≤ f.package ∧ f.package ≤ hi
  statements : CaseCover.LaidOut lo f.statements hi
  functions : ∀ fn ∈ Decl.functions f.decls, lo ≤ fn.pos ∧ fn.pos ≤ fn.stop ∧ fn.stop ≤ hi
  ordered : (Decl.functions f.decls).Pairwise fun a b => a.pos < b.pos

/-- The functions among declarations one after the other. -/
theorem Decl.Fits.functions {lo hi : Pos} {decls : List Decl} (h : InTurn Decl.Fits lo decls hi) :
    (∀ fn ∈ Decl.functions decls, lo ≤ fn.pos ∧ fn.pos ≤ fn.stop ∧ fn.stop ≤ hi) ∧
      (Decl.functions decls).Pairwise fun a b => a.pos < b.pos := by
  induction decls generalizing lo with
  | nil => exact ⟨nofun, .nil⟩
  | cons d decls ih =>
    obtain ⟨mid, hd, hrest⟩ := h
    obtain ⟨hbetween, hordered⟩ := ih hrest
    have hle := hd.laidOut.le
    have hle' := hrest.le fun _ _ _ h => h.laidOut.le
    have hlater (fn : FuncDecl) (hfn : fn ∈ Decl.functions decls) :
        lo ≤ fn.pos ∧ fn.pos ≤ fn.stop ∧ fn.stop ≤ hi := by
      have hb := hbetween fn hfn
      exact ⟨Nat.le_trans hle hb.1, hb.2⟩
    cases d with
    | group start kind specs close => exact ⟨hlater, hordered⟩
    | func fn =>
      obtain ⟨hlo, hlt, hhi⟩ := hd.function fn rfl
      refine ⟨fun g hg => ?_, List.pairwise_cons.mpr ⟨fun g hg => ?_, hordered⟩⟩
      · rcases List.mem_cons.mp hg with rfl | hg
        · exact ⟨hlo, Nat.le_of_lt hlt, Nat.le_trans hhi hle'⟩
        · exact hlater g hg
      · exact Nat.lt_of_lt_of_le hlt (Nat.le_trans hhi (hbetween g hg).1)

namespace Parse

theorem rules_fitting (hi : Pos) (depth : Nat) : (rules depth).Fitting hi := by
  induction depth with
  | zero =>
    exact ⟨fun _ => Reads.throw, fun _ _ _ _ _ => Reads.throw, fun _ => Reads.throw,
      fun _ _ _ _ => Reads.throw, fun _ => Reads.throw⟩
  | succ depth ih =>
    exact ⟨fun _ => typeRule_reads ih, fun _ _ _ _ hfirst => binaryRule_reads ih hfirst,
      fun _ => unaryRule_reads ih, fun _ _ _ ht => literalValueRule_reads ih ht,
      fun _ => stmtRule_reads ih⟩

variable {hi lo : Pos} {r : Rules} (hr : r.Fitting hi)

include hr

omit hr in
theorem stop_funcDecl {fn : FuncDecl} (hbody : fn.body.isAbsent = false) :
    fn.stop = fn.body.stop := by
  unfold FuncDecl.stop
  split
  · next habsent =>
    rw [habsent] at hbody
    cases hbody
  · rfl

/-- A declaration ends before the end of the text. -/
theorem funcDecl_reads : Reads (Spaced hi lo) (funcDecl r) fun d =>
    Upto hi fun mid => d.Fits lo mid ∧ mid ≤ hi := by
  refine (expectKeyword_reads _).then_ fun start mid₁ hstart => ?_
  refine Reads.observe (observes_atOp _) fun b => ?_
  extract_lets rest
  have hrest (receiver : Option (List Expr)) (mid : Pos)
      (hreceiver : LaidOut mid₁ (Expr.statementsOfAll (receiver.getD [])) mid) :
      Reads (Spaced hi mid) (rest receiver) fun d =>
        Upto hi fun mid => d.Fits lo mid ∧ mid ≤ hi := by
    refine ident_reads.then_ fun name mid₂ hname => Reads.observe (observes_atOp _) fun b => ?_
    have hnameb := hname.bounds
    extract_lets signature
    have hsignature (tps : List Expr) (mid₃ : Pos)
        (htps : LaidOut mid₂ (Expr.statementsOfAll tps) mid₃) :
        Reads (Spaced hi mid₃) (signature tps) fun d =>
          Upto hi fun mid => d.Fits lo mid ∧ mid ≤ hi := by
      refine (params_reads hr).then_ fun (ps, _) mid₄ ⟨hps, hlt, hle⟩ => ?_
      refine Reads.observe (observes_atOp _) fun hasList => ?_
      refine (results_reads hr hle).then_ fun (rs, stop) mid₅ ⟨hrs, hle'⟩ => ?_
      have hheads := (hreceiver.append htps (by lia)).append hps (Nat.le_refl _)
      have hall := hheads.append hrs (Nat.le_refl _)
      have hgrow := hall.le
      refine Reads.observe (observes_atOp _) fun b => ?_
      extract_lets finish
      split
      · refine (block_reads hr).then_ fun body mid₆ ⟨hbody, hstop⟩ => ?_
        refine endStatement_reads fun hle'' => ?_
        have hbb := hbody.between
        refine Reads.pure_bind (.pure fun ts hts => ⟨mid₆, hts, ⟨?_, ?_⟩, hle''⟩)
        · exact (hall.append hbody.laidOut hle').mono (by lia) (Nat.le_refl _)
        · rintro fn ⟨⟩
          rw [stop_funcDecl hbody.present]
          refine ⟨hstart.1, ?_, ?_⟩ <;> lia
      · -- without a body the function ends with its signature
        refine endStatement_reads fun hle'' => Reads.observe (observes_atOp _) fun b => ?_
        extract_lets
        split
        · exact Reads.unexpected_bind
        · refine Reads.pure_bind (.pure fun ts hts => ⟨mid₅, hts, ⟨?_, ?_⟩, hle''⟩)
          · exact (hall.append (.nil (Nat.le_refl _)) hle').mono (by lia) (Nat.le_refl _)
          · rintro fn ⟨⟩
            refine ⟨hstart.1, ?_, hle'⟩
            exact (by lia : start < stop)
    split
    · split
      · exact Reads.unexpected_bind
      · exact (typeParams_reads hr).then_ fun tps mid₃ htps => hsignature tps mid₃ htps
    · exact Reads.pure_bind (hsignature [] mid₂ (.nil (Nat.le_refl _)))
  split
  · refine (params_reads hr).then_ fun ps mid ⟨hps, _, hle⟩ => Reads.pure_bind ?_
    exact hrest (some ps.1) mid (hps.mono (Nat.le_refl _) hle)
  · exact Reads.pure_bind (hrest none mid₁ (.nil (Nat.le_refl _)))

theorem topDecl_reads {importsAllowed : Bool} : Reads (Spaced hi lo) (topDecl r importsAllowed)
    fun d => Upto hi fun mid => d.1.Fits lo mid ∧ mid ≤ hi := by
  refine (groupDecl_reads hr).then_ fun g mid hg => ?_
  have hgroup {start close mid : Pos} {kind : DeclKind} {specs : List Spec}
      (h : (Stmt.decl start kind specs close).Fits lo mid) :
      (Decl.group start kind specs close).Fits lo mid :=
    ⟨LaidOut.tail h.laidOut, nofun⟩
  cases g with
  | some g => exact .pure fun ts hts => ⟨mid, hts, hgroup hg.1, hg.2⟩
  | none =>
    cases hg
    refine Reads.observe (observes_atKeyword _) fun b => ?_
    split
    · exact (funcDecl_reads hr).bind fun d => .pure fun ts hts => hts
    · refine Reads.observe (observes_atKeyword _) fun b => ?_
      split
      · exact (group_reads fun _ => importSpec_reads).then_ fun g mid hg => .pure fun ts hts =>
          ⟨mid, hts, hgroup hg.1, hg.2⟩
      · exact Reads.unexpected

/-- A file that was read is laid out. -/
theorem file_reads (comments : List Comment) :
    Reads (Spaced hi lo) (file r comments) fun f _ => f.LaidOut lo hi := by
  refine (expectKeyword_reads _).then_ fun start mid₁ hstart => ?_
  refine ident_reads.then_ fun name mid₂ hname => endStatement_reads fun hle => ?_
  have hnameb := hname.bounds
  let Fit (lo : Pos) (d : Decl) (mid : Pos) : Prop := d.Fits lo mid ∧ mid ≤ hi
  let I : List Decl × Bool → List Token → Prop := fun s => Collected hi Fit mid₂ s.1
  refine Reads.bind (repeated_reads (I := I) (D := I) (fun ts hts => ⟨mid₂, hts, rfl⟩)
    fun (acc, importsAllowed) => ?_) fun (acc, _) => .pure fun ts ⟨mid, _, hdecls⟩ => ?_
  · refine Reads.observe observes_atEnd fun b => ?_
    split
    · exact .pure fun ts hts => hts
    · exact Reads.upto fun mid hacc => (topDecl_reads hr).then_ fun d mid' hd =>
        .pure fun ts hts => ⟨mid', hts, hacc.collect hd⟩
  · have hle' : mid ≤ hi := hdecls.last hle fun _ _ _ h => h.2
    have hfits : InTurn Decl.Fits mid₂ acc.reverse mid := hdecls.imp fun _ _ _ h => h.1
    obtain ⟨hbetween, hordered⟩ := Decl.Fits.functions hfits
    have hall := InTurn.laidOut (hfits.imp fun _ _ _ h => h.laidOut)
    refine ⟨⟨hstart.1, hstart.2.1⟩, hall.mono (by lia) hle', fun fn hfn => ?_, hordered⟩
    obtain ⟨hlo, hle'', hhi⟩ := hbetween fn hfn
    exact ⟨by lia, hle'', by lia⟩

end Parse

/-! ## Files in a set of files -/

/-- Line directives join the map of a file and leave the rest as it is. -/
theorem LineDirective.collect_keeps {f g : FileMap} {comments : List RawComment}
    (h : collect f comments = .ok g) : g.base = f.base ∧ g.size = f.size := by
  induction comments generalizing f with
  | nil =>
    cases h
    exact ⟨rfl, rfl⟩
  | cons c rest ih =>
    rw [collect] at h
    obtain ⟨mark, -, h⟩ := ok_of_bind h
    cases mark with
    | none => exact ih h
    | some m =>
      have hadd : (addMark f m).base = f.base ∧ (addMark f m).size = f.size := by
        unfold addMark
        extract_lets later
        split <;> exact ⟨rfl, rfl⟩
      obtain ⟨hbase, hsize⟩ := ih h
      exact ⟨hbase.trans hadd.1, hsize.trans hadd.2⟩

/-- Reading a file adds its map behind those of the files before it, and the file is laid out where
the map says. -/
theorem SourceFile.laidOut_of_parse {files files' : FileSet} {name text : Text} {f : SourceFile}
    (h : SourceFile.parse files name text = .ok (f, files')) :
    ∃ m, files' = ⟨files.files ++ [m]⟩ ∧ m.base = files.nextBase ∧
      f.LaidOut m.base (m.base + m.size) := by
  rw [parse] at h
  split at h
  · cases h
  · next tokens comments hread =>
    extract_lets plain at h
    split at h
    · cases h
    · next map hmap =>
      obtain ⟨f', hrun, heq⟩ := ok_of_bind h
      cases heq
      obtain ⟨hbase, hsize⟩ := LineDirective.collect_keeps hmap
      refine ⟨map, rfl, hbase, ?_⟩
      rw [hbase, hsize]
      exact Parse.of_run (Q := fun f => f.LaidOut files.nextBase (files.nextBase + text.length))
        (fun depth => Parse.file_reads (Parse.rules_fitting _ depth) _)
        (Token.spaced_of_read hread) hrun

/-- A file was read into a set of files in order, where it has a map. -/
structure FileSet.Read (s : FileSet) (f : SourceFile) (m : FileMap) : Prop where
  inOrder : s.InOrder
  mem : m ∈ s.files
  parsed : ∃ files name text, SourceFile.parse files name text = .ok (f, ⟨files.files ++ [m]⟩)

namespace FileSet.Read

variable {s s' : FileSet} {f : SourceFile} {m : FileMap}

theorem laidOut (h : s.Read f m) : f.LaidOut m.base (m.base + m.size) := by
  obtain ⟨files, name, text, hparse⟩ := h.parsed
  obtain ⟨m', hfiles, -, hlaid⟩ := SourceFile.laidOut_of_parse hparse
  rw [FileSet.mk.injEq, List.append_cancel_left_eq, List.cons.injEq] at hfiles
  exact hfiles.1 ▸ hlaid

theorem holdsPlain (h : s.Read f m) (hplain : m.marks = []) : s.HoldsPlain m :=
  ⟨h.inOrder, h.mem, hplain⟩

theorem mono (h : s.Read f m) (hs : s'.InOrder) (hsub : s.files ⊆ s'.files) : s'.Read f m :=
  ⟨hs, hsub h.mem, h.parsed⟩

end FileSet.Read

/-- Sources were read into a set of files: the files before are still there, and so are those
read. -/
structure FileSet.ReadsAll (files : FileSet) (fs : List SourceFile) (files' : FileSet) : Prop where
  inOrder : files'.InOrder
  keeps : files.files ⊆ files'.files
  read : ∀ f ∈ fs, ∃ m, files'.Read f m

theorem FileSet.ReadsAll.trans {a b c : FileSet} {fs gs : List SourceFile} (h : a.ReadsAll fs b)
    (h' : b.ReadsAll gs c) : a.ReadsAll (fs ++ gs) c where
  inOrder := h'.inOrder
  keeps _ hm := h'.keeps (h.keeps hm)
  read f hf := by
    rcases List.mem_append.mp hf with hf | hf
    · obtain ⟨m, hm⟩ := h.read f hf
      exact ⟨m, hm.mono h'.inOrder h'.keeps⟩
    · exact h'.read f hf

theorem SourceFile.readsAll_of_parse {files files' : FileSet} {name text : Text} {f : SourceFile}
    (hfiles : files.InOrder) (h : SourceFile.parse files name text = .ok (f, files')) :
    files.ReadsAll [f] files' := by
  obtain ⟨m, rfl, hbase, -⟩ := laidOut_of_parse h
  have hinOrder := hfiles.add hbase
  refine ⟨hinOrder, List.subset_append_left _ _, fun g hg => ?_⟩
  rw [List.mem_singleton.mp hg]
  exact ⟨m, hinOrder, List.mem_append_right _ List.mem_cons_self, files, name, text, h⟩

namespace Engine

/-- The files of a package are read into a set of files one after the other. -/
theorem readsAll_of_readFiles {files files' : FileSet} {sources : List (Text × Text)}
    {fs : List SourceFile} (hfiles : files.InOrder)
    (h : readFiles files sources = .ok (fs, files')) : files.ReadsAll fs files' := by
  induction sources generalizing files fs with
  | nil =>
    cases h
    exact ⟨hfiles, List.Subset.refl _, nofun⟩
  | cons source sources ih =>
    obtain ⟨name, text⟩ := source
    rw [readFiles] at h
    obtain ⟨⟨f, mid⟩, hparse, h⟩ := ok_of_bind h
    obtain ⟨⟨rest, last⟩, hrest, h⟩ := ok_of_bind h
    cases h
    have hread := SourceFile.readsAll_of_parse hfiles hparse
    exact hread.trans (ih hread.inOrder hrest)

/-- All files that are read for packages are read into one set of files. -/
theorem readsAll_of_readPackages {files files' : FileSet} {ps : List PackageSource}
    {packages : List (Text × List SourceFile)} (hfiles : files.InOrder)
    (h : readPackages files ps = .ok (packages, files')) :
    files.ReadsAll (packages.flatMap (·.2)) files' := by
  induction ps generalizing files packages with
  | nil =>
    cases h
    exact ⟨hfiles, List.Subset.refl _, nofun⟩
  | cons p ps ih =>
    rw [readPackages] at h
    obtain ⟨⟨fs, mid⟩, hp, h⟩ := ok_of_bind h
    obtain ⟨⟨rest, last⟩, hrest, h⟩ := ok_of_bind h
    cases h
    have hread := readsAll_of_readFiles hfiles hp
    exact hread.trans (ih hread.inOrder hrest)

end Engine

end CaseCover
