import CaseCover.Proofs.Cache.Validity
import CaseCover.Proofs.Watch.Steps

/-!
# What happened in a session

A session does not know what its cache goes back to. Here a session is run together with a record of
that: which files a visit linted, which files a directory had when it was last linted, and for each
directory in the cache both the files that were linted and the files whose fingerprint is stored.
The record does not take part (`map_watch_run`), so every run of a session has one.

In every run the record explains the cache (`Explains`): the issues of an entry are those of
the files that were linted, and its fingerprint is the one of the files that were there when the
issues were remembered. Nothing in the session makes these two agree.
-/

namespace CaseCover

/-- The visit has linted and has not yet told the cache. -/
def Stage.isUnsaved : Stage → Bool
  | .forget => true
  | .remember _ => true
  | _ => false

namespace Watch

/-! ## Single moves -/

/-- Moves that touch neither files nor visits. -/
def Move.isQuiet : Move → Bool
  | .write _ _ => false
  | .fire _ => false
  | .proceed _ => false
  | _ => true

/-- The parts of a session that the cache depends on are the same. -/
def SameWork (w w' : Watch) : Prop :=
  w'.tree = w.tree ∧ w'.cache = w.cache ∧ w'.visits = w.visits

/-- Arming a timer leaves the files, the visits and the cache alone. -/
theorem arm_sameWork (w : Watch) (dir : Text) : SameWork w (w.arm dir) := by
  obtain ⟨timers, pending, awaited, harm⟩ := exists_arm_eq w dir
  rw [harm]
  exact ⟨rfl, rfl, rfl⟩

theorem sweep_sameWork (w : Watch) : SameWork w w.sweep := by
  obtain ⟨timers, awaited, hsweep⟩ := exists_sweep_eq w
  rw [hsweep]
  exact ⟨rfl, rfl, rfl⟩

/-- What a move does to the files, the cache and the visits. -/
inductive Effect (e : Engine) (w w' : Watch) : Move → Prop
  | write {path content : Text} (htree : w'.tree = w.tree.put path (.file content))
      (hcache : w'.cache = w.cache) (hvisits : w'.visits = w.visits) :
      Effect e w w' (.write path content)
  | fire {n : Nat} {dir : Text} (htimer : w.timers[n]? = some ⟨dir, true⟩)
      (htree : w'.tree = w.tree) (hcache : w'.cache = w.cache)
      (hvisits : w'.visits = w.visits ++ [⟨dir, .enter⟩]) : Effect e w w' (.fire n)
  | proceed {i : Nat} {dir : Text} {stage : Stage} (hvisit : w.visits[i]? = some ⟨dir, stage⟩)
      (htree : w'.tree = w.tree) (hcache : w'.cache = (w.visitStep e dir stage).1.cache)
      (hvisits : w'.visits =
        replaced w.visits i ((w.visitStep e dir stage).2.map fun next => ⟨dir, next⟩)) :
      Effect e w w' (.proceed i)
  | quiet {m : Move} (hquiet : m.isQuiet = true) (hsame : SameWork w w') : Effect e w w' m

/-- Every possible move has its effect. -/
theorem effect_of_step {e : Engine} {w w' : Watch} {m : Move} (h : w.step e m = some w') :
    Effect e w w' m := by
  cases taken_of_step h with
  | write path content => exact .write rfl rfl rfl
  | arm event hopen => exact .quiet rfl (arm_sameWork w _)
  | overlook event hopen => exact .quiet rfl ⟨rfl, rfl, rfl⟩
  | fire htimer => exact .fire htimer rfl rfl rfl
  | @proceed i dir stage hvisit => exact .proceed hvisit (visitStep_tree e w dir stage) rfl rfl
  | callOff => exact .quiet rfl ⟨rfl, rfl, rfl⟩
  | sweep hopen => exact .quiet rfl (sweep_sameWork w)
  | close hswept hopen hzero => exact .quiet rfl ⟨rfl, rfl, rfl⟩

/-! ## The files of a run -/

/-- The files after a move. -/
def Move.onFiles : Move → FileTree → FileTree
  | .write path content, t => t.put path (.file content)
  | _, t => t

/-- The files at each moment of a run. -/
def filesAt (t : FileTree) : List Move → List FileTree
  | [] => [t]
  | m :: rest => t :: filesAt (m.onFiles t) rest

theorem mem_filesAt_append {t u : FileTree} {moves : List Move} (h : u ∈ filesAt t moves)
    (later : List Move) : u ∈ filesAt t (moves ++ later) := by
  induction moves generalizing t with
  | nil =>
    rw [filesAt, List.mem_singleton] at h
    subst h
    cases later <;> exact List.mem_cons_self
  | cons m moves ih =>
    rw [filesAt] at h
    rcases List.mem_cons.mp h with rfl | h
    · exact List.mem_cons_self
    · exact List.mem_cons_of_mem _ (ih h)

theorem step_tree {e : Engine} {w w' : Watch} {m : Move} (h : w.step e m = some w') :
    w'.tree = m.onFiles w.tree := by
  cases effect_of_step h with
  | write htree _ _ => exact htree
  | fire _ htree _ _ => exact htree
  | proceed _ htree _ _ => exact htree
  | quiet hquiet hsame =>
    cases m with
    | write path content => cases hquiet
    | _ => exact hsame.1

/-- The files at the end of a run are among those of the run. -/
theorem tree_mem_filesAt {e : Engine} {w w' : Watch} {moves : List Move}
    (h : w.run e moves = some w') : w'.tree ∈ filesAt w.tree moves := by
  induction moves generalizing w with
  | nil =>
    cases h
    exact List.mem_cons_self
  | cons m moves ih =>
    obtain ⟨w₁, hstep, hrun⟩ := run_cons h
    rw [filesAt, ← step_tree hstep]
    exact List.mem_cons_of_mem _ (ih hrun)

end Watch

/-! ## The record -/

/-- What an entry of the cache goes back to. -/
structure Origin where
  /-- The files that were linted. -/
  linted : FileTree
  /-- The files whose fingerprint is stored. -/
  saved : FileTree

/-- A session with a record of what happened in it. -/
structure Observed where
  watch : Watch
  /-- The visits, each with the files that it linted. -/
  visits : List (Visit × Option FileTree)
  /-- The files at the last time that a directory was linted. -/
  lastRun : Text → Option FileTree
  /-- What the entry of a directory goes back to. -/
  origin : Text → Option Origin

namespace Observed

open Watch (Move replaced filesAt mem_filesAt_append)

/-- Nothing has happened. -/
def idle (t : FileTree) (dirs : List Text) : Observed :=
  ⟨Watch.idle t dirs, [], fun _ => none, fun _ => none⟩

/-- The files that a visit has linted after a step. -/
def lintedAfter (o : Observed) (linted : Option FileTree) : Stage → Option FileTree
  | .lint => some o.watch.tree
  | _ => linted

/-- The files at the last lintings after a step of a visit. -/
def lastRunAfter (o : Observed) (dir : Text) : Stage → Text → Option FileTree
  | .lint => fun d => if d = dir then some o.watch.tree else o.lastRun d
  | _ => o.lastRun

/-- What the entries go back to after a step of a visit. -/
def originAfter (o : Observed) (dir : Text) (linted : Option FileTree) :
    Stage → Text → Option Origin
  | .remember issues => fun d =>
    if d = dir ∧ (o.watch.cache.insert o.watch.tree dir issues).isOk then
      linted.map fun t => ⟨t, o.watch.tree⟩
    else o.origin d
  | .forget => fun d => if d = dir then none else o.origin d
  | _ => o.origin

/-- The record after a move that led to the session `w`. -/
def after (e : Engine) (o : Observed) (w : Watch) : Move → Observed
  | .fire n =>
    { o with
      watch := w
      visits := o.visits ++
        (o.watch.timers[n]?.map fun timer => (⟨timer.dir, .enter⟩, none)).toList }
  | .proceed i =>
    match o.visits[i]? with
    | some (⟨dir, stage⟩, linted) =>
      { watch := w
        visits := replaced o.visits i ((o.watch.visitStep e dir stage).2.map fun next =>
          (⟨dir, next⟩, o.lintedAfter linted stage))
        lastRun := o.lastRunAfter dir stage
        origin := o.originAfter dir linted stage }
    | none => { o with watch := w }
  | _ => { o with watch := w }

/-- The session and its record after a move, if the move is possible. -/
def step (e : Engine) (o : Observed) (m : Move) : Option Observed :=
  (o.watch.step e m).map fun w => o.after e w m

/-- The session and its record after moves, if all of them are possible. -/
def run (e : Engine) (o : Observed) (moves : List Move) : Option Observed :=
  moves.foldlM (step e) o

/-- What a step of a visit writes into the record. -/
theorem after_proceed {e : Engine} {o : Observed} {i : Nat} {dir : Text} {stage : Stage}
    {linted : Option FileTree} (h : o.visits[i]? = some (⟨dir, stage⟩, linted)) (w : Watch) :
    o.after e w (.proceed i) =
      { watch := w
        visits := replaced o.visits i ((o.watch.visitStep e dir stage).2.map fun next =>
          (⟨dir, next⟩, o.lintedAfter linted stage))
        lastRun := o.lastRunAfter dir stage
        origin := o.originAfter dir linted stage } := by
  simp only [after, h]

/-- A visit in the record was there before, or it is the one that has gone on. -/
theorem mem_visits_after {e : Engine} {o : Observed} {i : Nat} {dir : Text} {stage : Stage}
    {linted : Option FileTree} (h : o.visits[i]? = some (⟨dir, stage⟩, linted)) {w : Watch}
    {p : Visit × Option FileTree} (hp : p ∈ (o.after e w (.proceed i)).visits) :
    p ∈ o.visits ∨ ∃ next, (o.watch.visitStep e dir stage).2 = some next ∧
      p = (⟨dir, next⟩, o.lintedAfter linted stage) := by
  rw [after_proceed h] at hp
  rcases Watch.mem_replaced hp with hp | hp
  · exact .inl hp
  · obtain ⟨next, hnext, rfl⟩ := Option.map_eq_some_iff.mp hp
    exact .inr ⟨next, hnext, rfl⟩

theorem after_watch (e : Engine) (o : Observed) (w : Watch) (m : Move) :
    (o.after e w m).watch = w := by
  cases m with
  | proceed i =>
    rw [after]
    split <;> rfl
  | _ => rfl

/-- The record does not take part in the session. -/
theorem map_watch_run (e : Engine) (o : Observed) (moves : List Move) :
    (o.run e moves).map (·.watch) = o.watch.run e moves := by
  induction moves generalizing o with
  | nil => rfl
  | cons m moves ih =>
    rw [run, Watch.run, List.foldlM_cons, List.foldlM_cons, step]
    cases hstep : o.watch.step e m with
    | none => rfl
    | some w =>
      have hnext := ih (o.after e w m)
      rw [after_watch] at hnext
      exact hnext

/-- What holds of an idle session and stays true in every step holds in every run. -/
theorem run_induction {e : Engine} {o₀ : Observed} {P : List Move → Observed → Prop}
    (hnil : P [] o₀)
    (hsnoc : ∀ moves o m o', o₀.run e moves = some o → P moves o → o.step e m = some o' →
      P (moves ++ [m]) o') :
    ∀ moves o, o₀.run e moves = some o → P moves o := by
  -- runs grow at their ends, so the induction is on the reversed list of moves
  have hrev : ∀ (rev : List Move) (o : Observed), o₀.run e rev.reverse = some o →
      P rev.reverse o := by
    intro rev
    induction rev with
    | nil =>
      intro o h
      cases h
      exact hnil
    | cons m rev ih =>
      intro o' h
      rw [List.reverse_cons, run, List.foldlM_append] at h
      obtain ⟨o, hrun, hstep⟩ := Option.bind_eq_some_iff.mp h
      rw [List.foldlM_cons] at hstep
      obtain ⟨o'', hstep, hnil⟩ := Option.bind_eq_some_iff.mp hstep
      cases hnil
      rw [List.reverse_cons]
      exact hsnoc _ o m _ hrun (ih o hrun) hstep
  intro moves o h
  have hmoves := hrev moves.reverse o
  rw [List.reverse_reverse] at hmoves
  exact hmoves h

/-- A run that is recorded is a run of the session. -/
theorem watch_run {e : Engine} {o₀ o : Observed} {moves : List Move} (h : o₀.run e moves = some o) :
    o₀.watch.run e moves = some o.watch := by
  rw [← map_watch_run, h]
  rfl

/-! ## What the record explains -/

/-- The record explains the cache: what a visit is about to remember was found in the files that it
linted, and the entry of a directory has the issues of the files that were linted for it and the
fingerprint of the files that were saved. -/
structure Explains (e : Engine) (t₀ : FileTree) (moves : List Move) (o : Observed) : Prop where
  visits : o.visits.map (·.1) = o.watch.visits
  now : o.watch.tree ∈ filesAt t₀ moves
  ran : ∀ d t, o.lastRun d = some t → t ∈ filesAt t₀ moves
  unsaved : ∀ p ∈ o.visits, p.1.stage.isUnsaved = true →
    (o.lastRun p.1.dir).isSome ∧ ∃ t, p.2 = some t ∧ t ∈ filesAt t₀ moves ∧
      ∀ issues, p.1.stage = .remember issues → (e.lint t p.1.dir).1 = .ok issues
  entries : ∀ d entry, o.watch.cache.entries.lookup d = some entry →
    (o.lastRun d).isSome ∧ ∃ g, o.origin d = some g ∧
      g.linted ∈ filesAt t₀ moves ∧ g.saved ∈ filesAt t₀ moves ∧
      (e.lint g.linted d).1 = .ok entry.issues ∧ Fingerprint.ofDir g.saved d = .ok entry.hash

theorem explains_idle (e : Engine) (t : FileTree) (dirs : List Text) :
    Explains e t [] (idle t dirs) where
  visits := rfl
  now := List.mem_cons_self
  ran := by
    intro d t h
    cases h
  unsaved := by
    intro p hp
    cases hp
  entries := by
    intro d entry h
    cases h

theorem exists_visit {o : Observed} (h : o.visits.map (·.1) = o.watch.visits) {i : Nat} {v : Visit}
    (hv : o.watch.visits[i]? = some v) : ∃ linted, o.visits[i]? = some (v, linted) := by
  rw [← h, List.getElem?_map] at hv
  obtain ⟨⟨v', linted⟩, hvisit, rfl⟩ := Option.map_eq_some_iff.mp hv
  exact ⟨linted, hvisit⟩

/-- A move that does not touch visits and the cache keeps the record right. -/
theorem Explains.of_same {e : Engine} {t₀ : FileTree} {moves : List Move} {m : Move}
    {o o' : Observed} (h : Explains e t₀ moves o) (hwork : o'.watch.visits = o.watch.visits)
    (hcache : o'.watch.cache = o.watch.cache) (hvisits : o'.visits = o.visits)
    (hlast : o'.lastRun = o.lastRun) (horigin : o'.origin = o.origin)
    (hnow : o'.watch.tree ∈ filesAt t₀ (moves ++ [m])) : Explains e t₀ (moves ++ [m]) o' where
  visits := by rw [hvisits, hwork, h.visits]
  now := hnow
  ran := by
    intro d t ht
    rw [hlast] at ht
    exact mem_filesAt_append (h.ran d t ht) _
  unsaved := by
    intro p hp hunsaved
    rw [hvisits] at hp
    rw [hlast]
    obtain ⟨hran, t, hlinted, hfiles, hissues⟩ := h.unsaved p hp hunsaved
    exact ⟨hran, t, hlinted, mem_filesAt_append hfiles _, hissues⟩
  entries := by
    intro d entry hentry
    rw [hcache] at hentry
    rw [hlast, horigin]
    obtain ⟨hran, g, hg, hlinted, hsaved, hissues, hhash⟩ := h.entries d entry hentry
    exact ⟨hran, g, hg, mem_filesAt_append hlinted _, mem_filesAt_append hsaved _, hissues, hhash⟩

/-! ## Steps of visits -/

/-- Only linting leads to a stage from which the cache is still to be told. -/
theorem eq_lint_of_isUnsaved {e : Engine} {w : Watch} {dir : Text} {stage next : Stage}
    (h : (w.visitStep e dir stage).2 = some next) (hnext : next.isUnsaved = true) :
    stage = .lint ∧ next = w.linted e dir := by
  cases stage with
  | lint =>
    cases h
    exact ⟨rfl, rfl⟩
  | look =>
    cases h
    split at hnext <;> cases hnext
  | compare =>
    cases h
    unfold Watch.compared at hnext
    split at hnext <;> cases hnext
  | leave => cases h
  | enter => cases h; cases hnext
  | forget => cases h; cases hnext
  | remember issues => cases h; cases hnext
  | report issues => cases h; cases hnext

/-- Remembering changes the entry of the directory, if its files can be read. -/
theorem lookup_remember (w : Watch) (dir : Text) (issues : List Issue) (d : Text) :
    (w.remember dir issues).entries.lookup d =
      if d = dir ∧ (w.cache.insert w.tree dir issues).isOk then
        (Fingerprint.ofDir w.tree dir).toOption.map fun hash => ⟨hash, issues⟩
      else w.cache.entries.lookup d := by
  rw [Watch.remember]
  cases hinsert : w.cache.insert w.tree dir issues with
  | error fault => simp [Except.isOk, Except.toBool]
  | ok cache =>
    have hlookup := Cache.lookup_insert hinsert d
    simp only [hlookup, Except.isOk, Except.toBool, and_true]

/-- A directory that was linted has been linted from then on. -/
theorem isSome_lastRunAfter {o : Observed} {d : Text} (h : (o.lastRun d).isSome = true) (dir : Text)
    (stage : Stage) : (o.lastRunAfter dir stage d).isSome = true := by
  cases stage with
  | lint =>
    simp only [lastRunAfter]
    split
    · rfl
    · exact h
  | _ => exact h

section Proceed

variable {e : Engine} {t₀ : FileTree} {moves : List Move} {m : Move} {o : Observed} {i : Nat}
  {dir : Text} {stage : Stage} {linted : Option FileTree}

theorem ran_lastRunAfter (h : Explains e t₀ moves o) {d : Text} {t : FileTree}
    (ht : o.lastRunAfter dir stage d = some t) : t ∈ filesAt t₀ moves := by
  cases stage with
  | lint =>
    simp only [lastRunAfter] at ht
    split at ht
    · cases ht
      exact h.now
    · exact h.ran d t ht
  | _ => exact h.ran d t ht

/-- A visit that is about to remember issues found them in the files that it linted. -/
theorem unsaved_after (h : Explains e t₀ moves o)
    (hvisit : o.visits[i]? = some (⟨dir, stage⟩, linted)) {w' : Watch} {p : Visit × Option FileTree}
    (hp : p ∈ (o.after e w' (.proceed i)).visits) (hunsaved : p.1.stage.isUnsaved = true) :
    (o.lastRunAfter dir stage p.1.dir).isSome ∧ ∃ t, p.2 = some t ∧ t ∈ filesAt t₀ moves ∧
      ∀ issues, p.1.stage = .remember issues → (e.lint t p.1.dir).1 = .ok issues := by
  rcases mem_visits_after hvisit hp with hp | ⟨next, hnext, rfl⟩
  · obtain ⟨hran, t, ht⟩ := h.unsaved p hp hunsaved
    exact ⟨isSome_lastRunAfter hran dir stage, t, ht⟩
  · obtain ⟨rfl, rfl⟩ := eq_lint_of_isUnsaved hnext hunsaved
    refine ⟨by simp [lastRunAfter], o.watch.tree, rfl, h.now, fun issues hissues => ?_⟩
    simp only [Watch.linted] at hissues
    split at hissues
    · next found hlint =>
      cases hissues
      exact hlint
    · cases hissues

/-- Every entry of the cache comes from a linting and a saving in the run, before the step of a
visit or by it. -/
theorem entries_visitStep (h : Explains e t₀ moves o)
    (hvisit : o.visits[i]? = some (⟨dir, stage⟩, linted)) {d : Text} {entry : Cache.Entry}
    (hentry : (o.watch.visitStep e dir stage).1.cache.entries.lookup d = some entry) :
    (o.lastRunAfter dir stage d).isSome ∧ ∃ g, o.originAfter dir linted stage d = some g ∧
      g.linted ∈ filesAt t₀ moves ∧ g.saved ∈ filesAt t₀ moves ∧
      (e.lint g.linted d).1 = .ok entry.issues ∧ Fingerprint.ofDir g.saved d = .ok entry.hash := by
  have hold (hentry : o.watch.cache.entries.lookup d = some entry) :=
    (h.entries d entry hentry).imp_left fun hran => isSome_lastRunAfter hran dir stage
  cases stage with
  | forget =>
    simp only [Watch.visitStep] at hentry
    rw [Cache.lookup_erase] at hentry
    simp only [originAfter]
    split at hentry
    · cases hentry
    · next hd =>
      rw [if_neg hd]
      exact hold hentry
  | remember issues =>
    simp only [Watch.visitStep] at hentry
    rw [lookup_remember] at hentry
    simp only [originAfter]
    split at hentry
    · next hd =>
      rw [if_pos hd]
      -- the issues are those of the visit, the fingerprint is taken from the files of now
      obtain ⟨hran, t, ht, hfiles, hissues⟩ := h.unsaved _ (List.mem_of_getElem? hvisit) rfl
      obtain ⟨hash, hhash, rfl⟩ := Option.map_eq_some_iff.mp hentry
      have hhash : Fingerprint.ofDir o.watch.tree dir = .ok hash := by
        cases hdir : Fingerprint.ofDir o.watch.tree dir with
        | error fault => rw [hdir] at hhash; cases hhash
        | ok hash' => rw [hdir] at hhash; cases hhash; rfl
      refine ⟨by rw [hd.1]; exact hran, ⟨t, o.watch.tree⟩, ?_, hfiles, h.now, ?_, ?_⟩
      · exact congrArg (Option.map fun t => (⟨t, o.watch.tree⟩ : Origin)) ht
      · rw [hd.1]
        exact hissues issues rfl
      · rw [hd.1]
        exact hhash
    · next hd =>
      rw [if_neg hd]
      exact hold hentry
  | _ => exact hold hentry

theorem explains_proceed (h : Explains e t₀ moves o)
    (hvisit : o.watch.visits[i]? = some ⟨dir, stage⟩) {w' : Watch}
    (hcache : w'.cache = (o.watch.visitStep e dir stage).1.cache)
    (hvisits : w'.visits =
      replaced o.watch.visits i ((o.watch.visitStep e dir stage).2.map fun next => ⟨dir, next⟩))
    (hnow : w'.tree ∈ filesAt t₀ (moves ++ [.proceed i])) :
    Explains e t₀ (moves ++ [.proceed i]) (o.after e w' (.proceed i)) := by
  obtain ⟨linted, hvisit⟩ := exists_visit h.visits hvisit
  have hafter := after_proceed (e := e) hvisit w'
  constructor
  · rw [hafter, Watch.map_replaced, h.visits, hvisits, Option.map_map]
    rfl
  · rw [after_watch]
    exact hnow
  · intro d t ht
    rw [hafter] at ht
    exact mem_filesAt_append (ran_lastRunAfter h ht) _
  · intro p hp hunsaved
    obtain ⟨hran, t, ht, hfiles, hissues⟩ := unsaved_after h hvisit hp hunsaved
    rw [hafter]
    exact ⟨hran, t, ht, mem_filesAt_append hfiles _, hissues⟩
  · intro d entry hentry
    rw [after_watch, hcache] at hentry
    rw [hafter]
    obtain ⟨hran, g, hg, hlinted, hsaved, hissues, hhash⟩ := entries_visitStep h hvisit hentry
    exact ⟨hran, g, hg, mem_filesAt_append hlinted _, mem_filesAt_append hsaved _, hissues, hhash⟩

end Proceed

/-- A timer that goes off adds a visit that has done nothing yet. -/
theorem explains_fire {e : Engine} {t₀ : FileTree} {moves : List Move} {o : Observed} {n : Nat}
    {dir : Text} (h : Explains e t₀ moves o) (htimer : o.watch.timers[n]? = some ⟨dir, true⟩)
    {w' : Watch} (hcache : w'.cache = o.watch.cache)
    (hvisits : w'.visits = o.watch.visits ++ [⟨dir, .enter⟩])
    (hnow : w'.tree ∈ filesAt t₀ (moves ++ [.fire n])) :
    Explains e t₀ (moves ++ [.fire n]) (o.after e w' (.fire n)) := by
  -- but for the new visit, which has linted nothing, all is as it was
  have hsame : Explains e t₀ (moves ++ [.fire n])
      { o with watch := { w' with visits := o.watch.visits } } :=
    h.of_same rfl hcache rfl rfl rfl hnow
  simp only [after, htimer, Option.map_some, Option.toList_some]
  refine ⟨?_, hnow, hsame.ran, ?_, hsame.entries⟩
  · rw [List.map_append, h.visits, hvisits]
    rfl
  · intro p hp hunsaved
    rcases List.mem_append.mp hp with hp | hp
    · exact hsame.unsaved p hp hunsaved
    · cases List.mem_singleton.mp hp
      cases hunsaved

/-- Every step keeps the record right. -/
theorem explains_step {e : Engine} {t₀ : FileTree} {dirs : List Text} {moves : List Move} {m : Move}
    {o o' : Observed} (hrun : (Watch.idle t₀ dirs).run e moves = some o.watch)
    (h : Explains e t₀ moves o) (hstep : o.step e m = some o') :
    Explains e t₀ (moves ++ [m]) o' := by
  obtain ⟨w', hw, rfl⟩ := Option.map_eq_some_iff.mp hstep
  have hnow : w'.tree ∈ filesAt t₀ (moves ++ [m]) := by
    have hrun' : (Watch.idle t₀ dirs).run e (moves ++ [m]) = some w' := by
      rw [Watch.run_append, hrun]
      exact hw
    exact Watch.tree_mem_filesAt hrun'
  cases Watch.effect_of_step hw with
  | write htree hcache hvisits => exact h.of_same hvisits hcache rfl rfl rfl hnow
  | quiet hquiet hsame =>
    obtain ⟨-, hcache, hvisits⟩ := hsame
    cases m with
    | write path content => cases hquiet
    | fire n => cases hquiet
    | proceed i => cases hquiet
    | _ => exact h.of_same hvisits hcache rfl rfl rfl hnow
  | proceed hvisit htree hcache hvisits => exact explains_proceed h hvisit hcache hvisits hnow
  | fire htimer htree hcache hvisits => exact explains_fire h htimer hcache hvisits hnow

/-- The record explains the cache in every run. -/
theorem explains_run {e : Engine} {t : FileTree} {dirs : List Text} {moves : List Move}
    {o : Observed} (h : (idle t dirs).run e moves = some o) : Explains e t moves o :=
  run_induction (explains_idle e t dirs)
    (fun _ _ _ _ hrun hexplains hstep => explains_step (watch_run hrun) hexplains hstep) moves o h

end Observed

end CaseCover
