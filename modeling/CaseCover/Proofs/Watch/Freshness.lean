import CaseCover.Proofs.Watch.Observation

/-!
# Which visits may be skipped

A visit is skipped if the cache answers. The cache answers for the files that were there when issues
were remembered, and these need not be the files that were linted: a file may be written in between,
and another visit of the directory may come in between as well. So a skip is right exactly if the
saved files are those of the last linting.

They are if nobody writes to a directory while a visit of it has linted and not yet told the cache
(`Undisturbed`), and its files can always be read: a directory that cannot be remembered keeps the
entry that it had. This is carried by `Steady`: what such a visit linted is what is there now, and
the saved files of an entry are those of the last linting, unless there is such a visit.
-/

namespace CaseCover

namespace Watch

/-- A visit of the directory has linted and has not yet told the cache. -/
def HasUnsaved (w : Watch) (dir : Text) : Prop :=
  ∃ v ∈ w.visits, v.dir = dir ∧ v.stage.isUnsaved = true

/-- No write of a run changes the source files of a directory while a visit of it has linted and has
not yet told the cache. -/
def Undisturbed (e : Engine) (w₀ : Watch) (moves : List Move) (dir : Text) : Prop :=
  ∀ before path content after w, moves = before ++ .write path content :: after →
    w₀.run e before = some w → w.HasUnsaved dir →
    (w.tree.put path (.file content)).SameFiles w.tree dir

theorem Undisturbed.init {e : Engine} {w₀ : Watch} {moves : List Move} {m : Move} {dir : Text}
    (h : Undisturbed e w₀ (moves ++ [m]) dir) : Undisturbed e w₀ moves dir := by
  rintro before path content after w rfl hrun hunsaved
  exact h before path content (after ++ [m]) w (by simp) hrun hunsaved

end Watch

namespace Observed

open Watch (Move filesAt)

/-! ## Undisturbed directories -/

/-- What was linted and not yet saved is what is there now, and what is saved was linted and is what
was linted last, unless something is not yet saved. -/
structure Steady (o : Observed) (dir : Text) : Prop where
  unsaved : ∀ p ∈ o.visits, p.1.dir = dir → p.1.stage.isUnsaved = true →
    (∃ t, p.2 = some t ∧ t.SameFiles o.watch.tree dir) ∧
      ∃ t, o.lastRun dir = some t ∧ t.SameFiles o.watch.tree dir
  stored : ∀ g, o.origin dir = some g → g.linted.SameFiles g.saved dir ∧
    ((∃ t, o.lastRun dir = some t ∧ t.SameFiles g.saved dir) ∨
      ∃ p ∈ o.visits, p.1.dir = dir ∧ p.1.stage.isUnsaved = true)

variable {e : Engine} {o : Observed} {i : Nat} {dir d : Text} {stage : Stage}
  {linted : Option FileTree}

/-- Only unsaved visits of the directory count, and the record about the directory. -/
theorem Steady.of_same {o' : Observed} (h : Steady o dir) (htree : o'.watch.tree = o.watch.tree)
    (hnew : ∀ p ∈ o'.visits, p.1.dir = dir → p.1.stage.isUnsaved = true → p ∈ o.visits)
    (hkept : ∀ p ∈ o.visits, p.1.dir = dir → p.1.stage.isUnsaved = true → p ∈ o'.visits)
    (hlast : o'.lastRun dir = o.lastRun dir) (horigin : o'.origin dir = o.origin dir) :
    Steady o' dir where
  unsaved := by
    intro p hp hdir hunsaved
    rw [htree, hlast]
    exact h.unsaved p (hnew p hp hdir hunsaved) hdir hunsaved
  stored := by
    intro g hg
    rw [horigin] at hg
    rw [hlast]
    obtain ⟨hsame, hran | ⟨p, hp, hdir, hunsaved⟩⟩ := h.stored g hg
    · exact ⟨hsame, .inl hran⟩
    · exact ⟨hsame, .inr ⟨p, hkept p hp hdir hunsaved, hdir, hunsaved⟩⟩

theorem steady_write {w' : Watch} {path content : Text} (h : Steady o dir)
    (htree : w'.tree = o.watch.tree.put path (.file content))
    (hsame : (∃ p ∈ o.visits, p.1.dir = dir ∧ p.1.stage.isUnsaved = true) →
      (o.watch.tree.put path (.file content)).SameFiles o.watch.tree dir) :
    Steady (o.after e w' (.write path content)) dir where
  unsaved := by
    intro p hp hdir hunsaved
    obtain ⟨⟨t, ht, hthen⟩, u, hu, hlast⟩ := h.unsaved p hp hdir hunsaved
    have hwritten := (hsame ⟨p, hp, hdir, hunsaved⟩).symm
    rw [← htree] at hwritten
    exact ⟨⟨t, ht, hthen.trans hwritten⟩, u, hu, hlast.trans hwritten⟩
  stored := h.stored

/-! ## Steps of visits -/

theorem steady_other {w' : Watch} (h : Steady o dir)
    (hvisit : o.visits[i]? = some (⟨d, stage⟩, linted)) (htree : w'.tree = o.watch.tree)
    (hother : d = dir → stage ≠ .lint ∧ stage.isUnsaved = false) :
    Steady (o.after e w' (.proceed i)) dir := by
  refine h.of_same (by rw [after_watch, htree]) ?_ ?_ ?_ ?_
  · -- the visit that goes on is not about to tell the cache, neither before nor after its step
    intro p hp hdir hunsaved
    rcases mem_visits_after hvisit hp with hp | ⟨next, hnext, rfl⟩
    · exact hp
    · exact absurd (eq_lint_of_isUnsaved hnext hunsaved).1 (hother hdir).1
  · intro p hp hdir hunsaved
    rw [after_proceed hvisit]
    refine Watch.mem_replaced_of_ne hp hvisit ?_ _
    rintro rfl
    rw [(hother hdir).2] at hunsaved
    cases hunsaved
  · rw [after_proceed hvisit]
    cases stage with
    | lint => exact if_neg fun hd => (hother hd.symm).1 rfl
    | _ => rfl
  · rw [after_proceed hvisit]
    cases stage with
    | forget => exact if_neg fun hd => absurd (hother hd.symm).2 (by simp [Stage.isUnsaved])
    | remember issues =>
      exact if_neg fun hd => absurd (hother hd.1.symm).2 (by simp [Stage.isUnsaved])
    | _ => rfl

/-- Linting the directory makes the files of now the ones that were linted last. -/
theorem steady_lint {w' : Watch} (h : Steady o dir)
    (hvisit : o.visits[i]? = some (⟨dir, .lint⟩, linted)) (htree : w'.tree = o.watch.tree) :
    Steady (o.after e w' (.proceed i)) dir := by
  have hlinted : (o.watch.linted e dir).isUnsaved = true := by
    unfold Watch.linted
    split <;> rfl
  constructor
  · intro p hp hdir hunsaved
    rw [after_watch, htree, after_proceed hvisit]
    refine ⟨?_, o.watch.tree, if_pos rfl, .refl _ _⟩
    rcases mem_visits_after hvisit hp with hp | ⟨next, hnext, rfl⟩
    · exact (h.unsaved p hp hdir hunsaved).1
    · exact ⟨o.watch.tree, rfl, .refl _ _⟩
  · intro g hg
    rw [after_proceed hvisit] at hg ⊢
    exact ⟨(h.stored g hg).1, .inr ⟨_, Watch.mem_replaced_self hvisit _, rfl, hlinted⟩⟩

/-- A visit that tells the cache leaves the other ones as they are. -/
theorem unsaved_of_told {w' : Watch} (h : Steady o dir)
    (hvisit : o.visits[i]? = some (⟨dir, stage⟩, linted)) (hstage : stage.isUnsaved = true)
    (htree : w'.tree = o.watch.tree) :
    ∀ p ∈ (o.after e w' (.proceed i)).visits, p.1.dir = dir → p.1.stage.isUnsaved = true →
      (∃ t, p.2 = some t ∧ t.SameFiles w'.tree dir) ∧
        ∃ t, (o.after e w' (.proceed i)).lastRun dir = some t ∧ t.SameFiles w'.tree dir := by
  intro p hp hdir hunsaved
  have hlast : (o.after e w' (.proceed i)).lastRun = o.lastRun := by
    rw [after_proceed hvisit]
    cases stage with
    | lint => cases hstage
    | _ => rfl
  rw [htree, hlast]
  rcases mem_visits_after hvisit hp with hp | ⟨next, hnext, rfl⟩
  · exact h.unsaved p hp hdir hunsaved
  · obtain ⟨rfl, -⟩ := eq_lint_of_isUnsaved hnext hunsaved
    cases hstage

theorem steady_forget {w' : Watch} (h : Steady o dir)
    (hvisit : o.visits[i]? = some (⟨dir, .forget⟩, linted)) (htree : w'.tree = o.watch.tree) :
    Steady (o.after e w' (.proceed i)) dir := by
  constructor
  · rw [after_watch]
    exact unsaved_of_told h hvisit rfl htree
  · intro g hg
    rw [after_proceed hvisit] at hg
    simp [originAfter] at hg

/-- What is remembered was linted last, and it is what is there now. -/
theorem steady_remember {issues : List Issue} {w' : Watch} (h : Steady o dir)
    (hvisit : o.visits[i]? = some (⟨dir, .remember issues⟩, linted))
    (hready : (o.watch.cache.insert o.watch.tree dir issues).isOk = true)
    (htree : w'.tree = o.watch.tree) : Steady (o.after e w' (.proceed i)) dir := by
  constructor
  · rw [after_watch]
    exact unsaved_of_told h hvisit rfl htree
  · intro g hg
    obtain ⟨⟨t, ht, hthen⟩, hlast⟩ := h.unsaved _ (List.mem_of_getElem? hvisit) rfl rfl
    rw [after_proceed hvisit] at hg ⊢
    simp only [originAfter, hready, and_true, ↓reduceIte] at hg
    simp only at ht
    subst ht
    cases hg
    exact ⟨hthen, .inl hlast⟩

theorem insert_isOk {t : FileTree} {ls : List (Text × Text)}
    (hls : Fingerprint.sources t dir = .ok ls) (c : Cache) (issues : List Issue) :
    (c.insert t dir issues).isOk = true := by
  have hhash : Fingerprint.ofDir t dir = .ok (Md5.hexDigest (Fingerprint.stream ls)) := by
    rw [Fingerprint.ofDir, hls]
    rfl
  rw [Cache.insert, hhash]
  rfl

theorem steady_proceed {w' : Watch} {ls : List (Text × Text)} (h : Steady o dir)
    (hvisit : o.visits[i]? = some (⟨d, stage⟩, linted)) (htree : w'.tree = o.watch.tree)
    (hls : Fingerprint.sources o.watch.tree dir = .ok ls) :
    Steady (o.after e w' (.proceed i)) dir := by
  by_cases hd : d = dir
  · subst hd
    cases stage with
    | lint => exact steady_lint h hvisit htree
    | forget => exact steady_forget h hvisit htree
    | remember issues => exact steady_remember h hvisit (insert_isOk hls _ issues) htree
    | _ => exact steady_other h hvisit htree fun _ => ⟨nofun, rfl⟩
  · exact steady_other h hvisit htree fun heq => absurd heq hd

theorem hasUnsaved_iff (hvisits : o.visits.map (·.1) = o.watch.visits) :
    o.watch.HasUnsaved dir ↔ ∃ p ∈ o.visits, p.1.dir = dir ∧ p.1.stage.isUnsaved = true := by
  rw [Watch.HasUnsaved, ← hvisits]
  simp

/-- Every step of an undisturbed run is steady. -/
theorem steady_step {m : Move} {o' : Observed} {ls : List (Text × Text)} (h : Steady o dir)
    (hvisits : o.visits.map (·.1) = o.watch.visits)
    (hls : Fingerprint.sources o.watch.tree dir = .ok ls)
    (hwrite : ∀ path content, m = .write path content → o.watch.HasUnsaved dir →
      (o.watch.tree.put path (.file content)).SameFiles o.watch.tree dir)
    (hstep : o.step e m = some o') : Steady o' dir := by
  obtain ⟨w', hw, rfl⟩ := Option.map_eq_some_iff.mp hstep
  cases Watch.effect_of_step hw with
  | write htree _ _ =>
    exact steady_write h htree fun hp => hwrite _ _ rfl ((hasUnsaved_iff hvisits).mpr hp)
  | fire htimer htree _ _ =>
    refine h.of_same htree (fun p hp hdir hunsaved => ?_) (fun p hp _ _ => ?_) rfl rfl
    · rcases List.mem_append.mp hp with hp | hp
      · exact hp
      · rw [htimer, Option.map_some, Option.toList_some, List.mem_singleton] at hp
        subst hp
        cases hunsaved
    · exact List.mem_append_left _ hp
  | proceed hvisit htree _ _ =>
    obtain ⟨linted, hvisit⟩ := exists_visit hvisits hvisit
    exact steady_proceed h hvisit htree hls
  | quiet hquiet hsame =>
    cases m with
    | write path content => cases hquiet
    | fire n => cases hquiet
    | proceed i => cases hquiet
    | _ => exact h.of_same hsame.1 (fun _ hp _ _ => hp) (fun _ hp _ _ => hp) rfl rfl

/-- Undisturbed runs are steady. -/
theorem steady_run {t₀ : FileTree} {dirs : List Text} {moves : List Move}
    (hrun : (idle t₀ dirs).run e moves = some o)
    (hread : ∀ t ∈ filesAt t₀ moves, ∃ ls, Fingerprint.sources t dir = .ok ls)
    (hundisturbed : Watch.Undisturbed e (Watch.idle t₀ dirs) moves dir) : Steady o dir := by
  refine run_induction (P := fun moves o =>
    (∀ t ∈ filesAt t₀ moves, ∃ ls, Fingerprint.sources t dir = .ok ls) →
      Watch.Undisturbed e (Watch.idle t₀ dirs) moves dir → Steady o dir)
    ?_ ?_ moves o hrun hread hundisturbed
  · intro _ _
    exact ⟨nofun, nofun⟩
  · intro moves o m o' hrun ih hstep hread hundisturbed
    have hexplains := explains_run hrun
    have hread' := fun t ht => hread t (Watch.mem_filesAt_append ht [m])
    obtain ⟨ls, hls⟩ := hread' _ hexplains.now
    refine steady_step (ih hread' hundisturbed.init) hexplains.visits hls ?_ hstep
    rintro path content rfl hunsaved
    exact hundisturbed moves path content [] o.watch rfl (watch_run hrun) hunsaved

/-! ## Skipped visits and entries -/

/-- A skipped directory has the files that were saved with its entry. -/
theorem sameFiles_of_skip {t₀ : FileTree} {moves : List Move} (hexplains : Explains e t₀ moves o)
    (hgood : ∀ t ∈ filesAt t₀ moves, t.Literal dir ∧ t.WellNamed dir)
    (happart : ∀ t ∈ filesAt t₀ moves, ∀ u ∈ filesAt t₀ moves, Fingerprint.TellsApart t u dir)
    (hskip : o.watch.compared dir = .leave) :
    ∃ g t, o.origin dir = some g ∧ o.lastRun dir = some t ∧
      o.watch.tree.SameFiles g.saved dir := by
  have hsome : (o.watch.cache.get? o.watch.tree dir).isSome = true := by
    unfold Watch.compared at hskip
    split at hskip
    · assumption
    · cases hskip
  obtain ⟨issues, hget⟩ := Option.isSome_iff_exists.mp hsome
  obtain ⟨hash, hnow, hentry⟩ := (Cache.get?_eq_some_iff _ _ _ _).mp hget
  obtain ⟨hran, g, hg, -, hsaved, -, hhash⟩ := hexplains.entries dir _ hentry
  obtain ⟨t, ht⟩ := Option.isSome_iff_exists.mp hran
  have hsources := (Fingerprint.ofDir_eq_iff (happart _ hsaved _ hexplains.now) hhash).mp
    (hnow.trans hhash.symm)
  have hnowgood := hgood _ hexplains.now
  have hsavedgood := hgood _ hsaved
  obtain ⟨ls, hls, -⟩ := Fingerprint.ofDir_eq_ok hhash
  exact ⟨g, t, hg, ht,
    (FileTree.sources_eq_iff hnowgood.1 hsavedgood.1 hnowgood.2 hsavedgood.2 hls).mp hsources⟩

/-- The fingerprint of an entry is the one of the files that were linted exactly if these have been
saved. -/
theorem ofDir_linted_iff {t₀ : FileTree} {moves : List Move} {g : Origin} {hash : Text}
    (hgood : ∀ t ∈ filesAt t₀ moves, t.Literal dir ∧ t.WellNamed dir)
    (happart : ∀ t ∈ filesAt t₀ moves, ∀ u ∈ filesAt t₀ moves, Fingerprint.TellsApart t u dir)
    (hlinted : g.linted ∈ filesAt t₀ moves) (hsaved : g.saved ∈ filesAt t₀ moves)
    (hhash : Fingerprint.ofDir g.saved dir = .ok hash) :
    Fingerprint.ofDir g.linted dir = .ok hash ↔ g.linted.SameFiles g.saved dir := by
  have hlintedgood := hgood _ hlinted
  have hsavedgood := hgood _ hsaved
  obtain ⟨ls, hls, -⟩ := Fingerprint.ofDir_eq_ok hhash
  rw [← hhash, Fingerprint.ofDir_eq_iff (happart _ hsaved _ hlinted) hhash]
  exact FileTree.sources_eq_iff hlintedgood.1 hsavedgood.1 hlintedgood.2 hsavedgood.2 hls

end Observed

/-- In every run of a session, where the digest tells the files of a directory apart: a skipped
directory has the files of its last linting exactly if these are the files that were saved, and an
entry has the fingerprint of the files that it was linted for exactly if these have been saved. Both
hold for a directory that nobody writes to while a visit has linted and not yet told the cache, and
whose files can always be read. -/
theorem Watch.skip_isFresh_iff (e : Engine) (t₀ : FileTree) (dirs : List Text) (moves : List Move)
    (w : Watch) (dir : Text) (hrun : (Watch.idle t₀ dirs).run e moves = some w)
    (hgood : ∀ t ∈ filesAt t₀ moves, t.Literal dir ∧ t.WellNamed dir)
    (happart : ∀ t ∈ filesAt t₀ moves, ∀ u ∈ filesAt t₀ moves, Fingerprint.TellsApart t u dir) :
    ∃ o, (Observed.idle t₀ dirs).run e moves = some o ∧ o.watch = w ∧
      (w.compared dir = .leave → ∃ g t, o.origin dir = some g ∧ o.lastRun dir = some t ∧
        (w.tree.SameFiles t dir ↔ g.saved.SameFiles t dir)) ∧
      (∀ entry, w.cache.entries.lookup dir = some entry → ∃ g, o.origin dir = some g ∧
        (e.lint g.linted dir).1 = .ok entry.issues ∧
        (Fingerprint.ofDir g.linted dir = .ok entry.hash ↔ g.linted.SameFiles g.saved dir)) ∧
      (Undisturbed e (Watch.idle t₀ dirs) moves dir → (∀ t ∈ filesAt t₀ moves, t.Readable dir) →
        (w.compared dir = .leave → ∃ t, o.lastRun dir = some t ∧ w.tree.SameFiles t dir) ∧
        ∀ entry, w.cache.entries.lookup dir = some entry → ∃ g, o.origin dir = some g ∧
          (e.lint g.linted dir).1 = .ok entry.issues ∧
          Fingerprint.ofDir g.linted dir = .ok entry.hash) := by
  obtain ⟨o, hobserved, rfl⟩ : ∃ o, (Observed.idle t₀ dirs).run e moves = some o ∧ o.watch = w := by
    have hmap := Observed.map_watch_run e (Observed.idle t₀ dirs) moves
    exact Option.map_eq_some_iff.mp (hmap.trans hrun)
  have hexplains := Observed.explains_run hobserved
  refine ⟨o, hobserved, rfl, fun hskip => ?_, fun entry hentry => ?_,
    fun hundisturbed hreadable => ?_⟩
  · obtain ⟨g, t, hg, ht, hsame⟩ := Observed.sameFiles_of_skip hexplains hgood happart hskip
    exact ⟨g, t, hg, ht, hsame.symm.trans, hsame.trans⟩
  · obtain ⟨-, g, hg, hlinted, hsaved, hissues, hhash⟩ := hexplains.entries dir entry hentry
    exact ⟨g, hg, hissues, Observed.ofDir_linted_iff hgood happart hlinted hsaved hhash⟩
  · have hsteady := Observed.steady_run hobserved
      (fun t ht => (FileTree.exists_sources_iff (hgood t ht).1 (hgood t ht).2).mpr (hreadable t ht))
      hundisturbed
    refine ⟨fun hskip => ?_, fun entry hentry => ?_⟩
    · obtain ⟨g, t, hg, ht, hsame⟩ := Observed.sameFiles_of_skip hexplains hgood happart hskip
      rcases (hsteady.stored g hg).2 with ⟨u, hu, hlast⟩ | ⟨p, hp, hdir, hunsaved⟩
      · exact ⟨u, hu, hsame.trans hlast.symm⟩
      · -- a visit has linted and not yet told the cache: it saw the files of now
        obtain ⟨-, u, hu, hlast⟩ := hsteady.unsaved p hp hdir hunsaved
        exact ⟨u, hu, hlast.symm⟩
    · obtain ⟨-, g, hg, hlinted, hsaved, hissues, hhash⟩ := hexplains.entries dir entry hentry
      exact ⟨g, hg, hissues,
        (Observed.ofDir_linted_iff hgood happart hlinted hsaved hhash).mpr (hsteady.stored g hg).1⟩

namespace Watch

/-! ## Writes that disturb and writes that do not -/

/-- The engine with its default rules. -/
def plainEngine : Engine := Engine.new "/w" "." []

/-- A module with one package. -/
def moduleTree (dir : Text) : FileTree :=
  ((FileTree.empty "/w").put "go.mod" (.file "module m\n")).put (dir ++ utf8 "/a.go")
    (.file "package p\n")

/-- The source file of the package was written, and a visit starts: it is about to ask the cache. -/
def revisit (dir : Text) (timer : Nat) : List Move :=
  [.notice ⟨dir ++ utf8 "/a.go", false, true⟩, .fire timer, .proceed 0, .proceed 0]

/-- A visit lints the package, a file is written, the visit goes on, and the next one starts. -/
def writeAfterLint (dir path content : Text) : List Move :=
  revisit dir 0 ++ [.proceed 0, .proceed 0, .write path content] ++
    List.replicate 3 (.proceed 0) ++ revisit dir 1

/-- A visit of the package ends, its source file is written, and the next one starts. -/
def writeAfterVisit (dir content : Text) : List Move :=
  revisit dir 0 ++ List.replicate 5 (.proceed 0) ++ [.write (dir ++ utf8 "/a.go") content] ++
    revisit dir 1

theorem undisturbed_of_sameFiles {e : Engine} {t₀ : FileTree} {dirs : List Text} {moves : List Move}
    {dir : Text} (h : ∀ t ∈ filesAt t₀ moves, ∀ u ∈ filesAt t₀ moves, t.SameFiles u dir) :
    Undisturbed e (idle t₀ dirs) moves dir := by
  rintro before path content after w rfl hrun -
  have hnext : (idle t₀ dirs).run e (before ++ [.write path content]) =
      some { w with tree := w.tree.put path (.file content) } := by
    rw [run_append, hrun]
    rfl
  have hnow := mem_filesAt_append (tree_mem_filesAt hrun) (.write path content :: after)
  have hthen := mem_filesAt_append (tree_mem_filesAt hnext) after
  rw [List.append_assoc] at hthen
  exact h _ hthen _ hnow

/-- A file of another package is written after the package was linted. -/
def writeElsewhere : List Move := writeAfterLint "p" "q/b.go" "package q\n"

/-- A write to another package does not disturb: the next visit is skipped, and rightly. -/
theorem skip_after_write_elsewhere :
    ∃ w o t, (idle (moduleTree "p") ["p"]).run plainEngine writeElsewhere = some w ∧
      w.visits = [⟨"p", .compare⟩] ∧ w.compared "p" = .leave ∧
      (Observed.idle (moduleTree "p") ["p"]).run plainEngine writeElsewhere = some o ∧
      o.lastRun "p" = some t ∧ w.tree.SameFiles t "p" := by
  have hend : ((idle (moduleTree "p") ["p"]).run plainEngine writeElsewhere).map
      (fun w => (w.visits, w.compared "p")) = some ([⟨"p", .compare⟩], .leave) := by
    decide +kernel
  obtain ⟨w, hrun, hw⟩ := Option.map_eq_some_iff.mp hend
  obtain ⟨hvisits, hskip⟩ := Prod.mk.inj hw
  have hentries : ∀ t ∈ filesAt (moduleTree "p") writeElsewhere,
      t.entriesAt "p" = [(utf8 "a.go", .file "package p\n")] := by
    have hmap : (filesAt (moduleTree "p") writeElsewhere).map (·.entriesAt "p") =
      List.replicate 15 [(utf8 "a.go", .file "package p\n")] := rfl
    intro t ht
    exact List.eq_of_mem_replicate (hmap ▸ List.mem_map_of_mem ht)
  have hgood : ∀ t ∈ filesAt (moduleTree "p") writeElsewhere,
      t.Literal "p" ∧ t.WellNamed "p" := fun t ht =>
    ⟨⟨by decide, rfl⟩, FileTree.wellNamed_of_single (hentries t ht) (by decide)⟩
  have hfiles : ∀ t ∈ filesAt (moduleTree "p") writeElsewhere,
      t.sourceFiles "p" = [(utf8 "a.go", some (utf8 "package p\n"))] := fun t ht =>
    FileTree.sourceFiles_of_single (hentries t ht) rfl (by decide) (by decide)
  have hreadable : ∀ t ∈ filesAt (moduleTree "p") writeElsewhere, t.Readable "p" := by
    intro t ht
    rw [FileTree.Readable, hfiles t ht]
    decide
  have hsame : ∀ t ∈ filesAt (moduleTree "p") writeElsewhere,
      ∀ u ∈ filesAt (moduleTree "p") writeElsewhere, t.SameFiles u "p" := by
    intro t ht u hu f
    rw [hfiles t ht, hfiles u hu]
  have happart : ∀ t ∈ filesAt (moduleTree "p") writeElsewhere,
      ∀ u ∈ filesAt (moduleTree "p") writeElsewhere, Fingerprint.TellsApart t u "p" := by
    intro t ht u hu
    have htgood := hgood t ht
    have hugood := hgood u hu
    obtain ⟨ls, hls⟩ := (FileTree.exists_sources_iff hugood.1 hugood.2).mpr (hreadable u hu)
    exact Fingerprint.tellsApart_of_eq
      ((FileTree.sources_eq_iff htgood.1 hugood.1 htgood.2 hugood.2 hls).mpr (hsame t ht u hu))
  obtain ⟨o, ho, -, -, -, hfresh⟩ :=
    skip_isFresh_iff plainEngine (moduleTree "p") ["p"] _ w "p" hrun hgood happart
  obtain ⟨t, ht, hfresh⟩ := (hfresh (undisturbed_of_sameFiles hsame) hreadable).1 hskip
  exact ⟨w, o, t, hrun, hvisits, hskip, ho, ht, hfresh⟩

/-- A run after which a visit is about to be skipped, although the files of its directory are not
those of the last linting. -/
def SkipsStale (dir : Text) (moves : List Move) : Prop :=
  ∃ w o, (idle (moduleTree dir) [dir]).run plainEngine moves = some w ∧
    w.visits = [⟨dir, .compare⟩] ∧ w.compared dir = .leave ∧
    (Observed.idle (moduleTree dir) [dir]).run plainEngine moves = some o ∧ o.watch = w ∧
    ¬ ∃ t, o.lastRun dir = some t ∧ w.tree.SameFiles t dir

theorem skipsStale_of_files {dir : Text} {moves : List Move} (now ran : List (Text × Option Text))
    (hend : ((Observed.idle (moduleTree dir) [dir]).run plainEngine moves).map
      (fun o => (o.watch.visits, o.watch.compared dir)) = some ([⟨dir, .compare⟩], .leave))
    (hfiles : ((Observed.idle (moduleTree dir) [dir]).run plainEngine moves).map
      (fun o => (o.watch.tree.sourceFiles dir, (o.lastRun dir).map fun t => t.sourceFiles dir)) =
        some (now, some ran))
    (hne : ∃ f ∈ ran, f ∉ now) : SkipsStale dir moves := by
  obtain ⟨o, hrun, ho⟩ := Option.map_eq_some_iff.mp hend
  obtain ⟨hvisits, hskip⟩ := Prod.mk.inj ho
  rw [hrun, Option.map_some, Option.some.injEq, Prod.mk.injEq] at hfiles
  obtain ⟨hnow, hlast⟩ := hfiles
  refine ⟨o.watch, o, Observed.watch_run hrun, hvisits, hskip, hrun, rfl, ?_⟩
  rintro ⟨t, ht, hsame⟩
  rw [ht, Option.map_some, Option.some.injEq] at hlast
  obtain ⟨f, hran, hnot⟩ := hne
  rw [← hlast, ← hsame f, hnow] at hran
  exact hnot hran

/-- A write between linting and remembering goes unnoticed, and so does a write to a directory
whose path, taken as a pattern, stands for another one. -/
theorem skipsStale_after_write :
    SkipsStale "p" (writeAfterLint "p" "p/a.go" "package q\n") ∧
    SkipsStale "p[x]" (writeAfterVisit "p[x]" "package q\n") := by
  constructor
  · exact skipsStale_of_files [(utf8 "a.go", some (utf8 "package q\n"))]
      [(utf8 "a.go", some (utf8 "package p\n"))] (by decide +kernel) (by decide +kernel) (by decide)
  · exact skipsStale_of_files [(utf8 "a.go", some (utf8 "package q\n"))]
      [(utf8 "a.go", some (utf8 "package p\n"))] (by decide +kernel) (by decide +kernel) (by decide)

end Watch

end CaseCover
