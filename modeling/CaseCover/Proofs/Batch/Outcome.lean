import CaseCover.Batch
import CaseCover.Proofs.Batch.Dispatch
import CaseCover.Proofs.Text.Order

/-!
# What comes of a pool

If a linter always says the same about a directory, the results of a pool are settled by the
directories that they belong to (`Answered`). In the end these are the directories that were handed
over, in the order of their delivery (`exists_order`), so the schedule decides only about the order
of the issues, about which failure is told, and about where a stop cuts the directories off
(`ScheduleLaw`).

Working through the directories one by one is a schedule like any other, and it ends
(`exists_run_finish`).
-/

namespace CaseCover

variable {σ : Type}

/-- What the linter says about a directory does not depend on its state. -/
def Linter.Answers (l : Linter σ) (f : Text → Except Text (List Issue)) : Prop :=
  ∀ dir s, (l.run dir s).1 = f dir

/-- The issues of a directory, none if it failed. -/
def found (f : Text → Except Text (List Issue)) (dir : Text) : List Issue :=
  match f dir with
  | .ok issues => issues
  | .error _ => []

namespace Pool

variable {l : Linter σ} {f : Text → Except Text (List Issue)} {p q : Pool σ}
  {dirs handed given : List Text}

/-! ## Results -/

/-- All results are what the linter says about their directories. -/
def Answered (f : Text → Except Text (List Issue)) (p : Pool σ) : Prop :=
  ∀ r, .done r ∈ p.busy ∨ r ∈ p.results → r.outcome = f r.dir

theorem answered_start (f : Text → Except Text (List Issue)) (l : Linter σ) (workers : Nat)
    (dirs : List Text) (s : σ) : Answered f (start l workers dirs s) := by
  intro r hr
  simp [start] at hr

/-- A step keeps the results right: a directory that gets linted has the answer of the linter. -/
theorem answered_step (hl : l.Answers f) (h : Answered f p) {m : Move}
    (hstep : p.step l m = some q) : Answered f q := by
  cases change_of_step hstep with
  | close _ _ hq | refuse _ _ _ hq | offer _ _ hq | giveUp _ _ hq | callOff _ hq =>
    subst hq
    exact h
  | handOver _ _ hq =>
    subst hq
    intro r hr
    exact h r (by simpa using hr)
  | lint hbusy hq =>
    subst hq
    intro r hr
    simp only [List.mem_append, List.mem_cons, Worker.done.injEq] at hr
    obtain (hfront | rfl | hback) | hresults := hr
    · exact h r (.inl (by simp [hbusy, hfront]))
    · exact hl _ _
    · exact h r (.inl (by simp [hbusy, hback]))
    · exact h r (.inr hresults)
  | deliver hbusy hq =>
    subst hq
    intro r hr
    refine h r ?_
    simp only [List.mem_append, List.mem_singleton] at hr
    rw [hbusy]
    grind

theorem answered_run (hl : l.Answers f) (h : Answered f p) {schedule : List Move}
    (hrun : p.run l schedule = some q) : Answered f q := by
  induction schedule generalizing p with
  | nil =>
    cases hrun
    exact h
  | cons m ms ih =>
    rw [run_cons] at hrun
    obtain ⟨r, hstep, hrest⟩ := Option.bind_eq_some_iff.mp hrun
    exact ih (answered_step hl h hstep) hrest

/-! ## Finished pools -/

theorem isFinished_iff :
    p.isFinished = true ↔ (∃ stop, p.dispatch = .closed stop) ∧ p.busy = [] := by
  unfold isFinished
  cases p.dispatch <;> simp

/-- In the end the linter was given all that was handed over. -/
theorem given_perm_handed (h : Accounted dirs handed given p) (hfinished : p.isFinished = true) :
    given.Perm handed := by
  have hheld := h.held
  have hlinted := h.linted
  rw [(isFinished_iff.mp hfinished).2] at hheld hlinted
  exact hlinted.trans hheld.symm

/-- Without a stop everything is handed over. -/
theorem handed_eq (h : Accounted dirs handed given p) (hfinished : p.isFinished = true)
    (hstop : p.stop = none) : handed = dirs := by
  obtain ⟨⟨stop, hclosed⟩, -⟩ := isFinished_iff.mp hfinished
  rw [Pool.stop, hclosed] at hstop
  subst hstop
  have hwaiting := h.waiting
  rw [h.closed hclosed, List.append_nil] at hwaiting
  exact hwaiting

/-- A stop has a reason outside. -/
theorem calledOff_of_stop (h : Accounted dirs handed given p) {reason : Text}
    (hstop : p.stop = some reason) : p.calledOff = some reason := by
  unfold Pool.stop at hstop
  split at hstop
  · next stop hclosed =>
    subst hstop
    exact h.stopped reason hclosed
  · cases hstop

/-- In the end the results are those of the directories that were handed over. -/
theorem exists_order (h : Accounted dirs handed given p) (ha : Answered f p)
    (hfinished : p.isFinished = true) :
    ∃ order : List Text, order.Perm handed ∧ p.results = order.map fun dir => ⟨dir, f dir⟩ := by
  have hheld := h.held
  rw [(isFinished_iff.mp hfinished).2] at hheld
  refine ⟨p.results.map DirResult.dir, hheld.symm, ?_⟩
  rw [List.map_map]
  refine List.ext_getElem (by simp) fun i hi _ => ?_
  rw [List.getElem_map, Function.comp_apply, ← ha _ (.inr (List.getElem_mem hi))]

/-- The issues are those of the directories, in the order of the results. -/
theorem issues_of_order {order : List Text} (h : p.results = order.map fun dir => ⟨dir, f dir⟩) :
    p.issues = order.flatMap (found f) := by
  rw [issues, h, List.flatMap_map]
  rfl

/-- There is no failure exactly if every directory was linted without one. -/
theorem failure_eq_none_iff {order : List Text}
    (h : p.results = order.map fun dir => ⟨dir, f dir⟩) :
    p.failure = none ↔ ∀ dir ∈ order, (f dir).isOk = true := by
  rw [failure, h, List.findSome?_map, List.findSome?_eq_none_iff]
  refine forall₂_congr fun dir _ => ?_
  cases hdir : f dir <;> simp [hdir, Except.isOk, Except.toBool]

/-- A failure is the answer on one of the directories. -/
theorem exists_of_failure {order : List Text} (h : p.results = order.map fun dir => ⟨dir, f dir⟩)
    {m : Text} (hfailure : p.failure = some m) : ∃ dir ∈ order, f dir = .error m := by
  rw [failure, h, List.findSome?_map] at hfailure
  obtain ⟨dir, hdir, hm⟩ := List.exists_of_findSome?_eq_some hfailure
  refine ⟨dir, hdir, ?_⟩
  cases hf : f dir <;> simp_all

/-- A finished pool can only be called off. -/
theorem step_of_isFinished (hfinished : p.isFinished = true) {m : Move} (hm : m.isOwn = true) :
    p.step l m = none := by
  obtain ⟨⟨stop, hclosed⟩, hbusy⟩ := isFinished_iff.mp hfinished
  rw [Option.eq_none_iff_forall_ne_some]
  intro q hstep
  cases change_of_step hstep <;> simp_all [Move.isOwn]

/-! ## One directory after the other -/

/-- Passing over the moves that are not possible leaves a schedule. -/
theorem exists_run_foldl (l : Linter σ) (p : Pool σ) (ms : List Move) :
    ∃ schedule, p.run l schedule = some (ms.foldl (advance l) p) := by
  induction ms generalizing p with
  | nil => exact ⟨[], rfl⟩
  | cons m ms ih =>
    rw [List.foldl_cons, advance]
    cases hstep : p.step l m with
    | none => exact ih p
    | some q =>
      obtain ⟨schedule, hrun⟩ := ih q
      exact ⟨m :: schedule, by rw [run_cons, hstep]; exact hrun⟩

theorem foldl_of_isFinished (hfinished : p.isFinished = true) {ms : List Move}
    (hms : ∀ m ∈ ms, Move.isOwn m = true) : ms.foldl (advance l) p = p := by
  induction ms with
  | nil => rfl
  | cons m ms ih =>
    rw [List.forall_mem_cons] at hms
    rw [List.foldl_cons, advance, step_of_isFinished hfinished hms.1]
    exact ih hms.2

/-- A turn works off the next directory, with room for its result. -/
theorem foldl_turn {dir : Text} {rest : List Text} (hdispatch : p.dispatch = .looking)
    (hwaiting : p.waiting = dir :: rest) (hbusy : p.busy = []) (hoff : p.calledOff = none)
    (hworkers : 0 < p.workers) (hroom : p.results.length < p.room) :
    turn.foldl (advance l) p = { p with
      waiting := rest
      results := p.results ++ [⟨dir, (l.run dir p.state).1⟩]
      calledOff := l.stopped (l.run dir p.state).2
      state := (l.run dir p.state).2 } := by
  simp [turn, advance, step, look, handOver, Pool.lint, deliver, hdispatch, hwaiting, hbusy, hoff,
    hworkers, hroom]

/-- The turn of a directory that is not offered any more ends the work. -/
theorem isFinished_foldl_turn {reason : Text} (hdispatch : p.dispatch = .looking)
    (hwaiting : p.waiting ≠ []) (hbusy : p.busy = []) (hoff : p.calledOff = some reason) :
    (turn.foldl (advance l) p).isFinished = true := by
  obtain ⟨dir, rest, hwaiting⟩ := List.exists_cons_of_ne_nil hwaiting
  simp [turn, advance, step, look, handOver, Pool.lint, deliver, hdispatch, hwaiting, hbusy, hoff,
    isFinished]

/-- With a turn for every directory and one more look, the pool is finished. -/
theorem isFinished_turns (h : Accounted dirs handed given p) (hdispatch : p.dispatch = .looking)
    (hbusy : p.busy = []) (n : Nat) (hn : p.waiting.length = n) :
    (((List.replicate n turn).flatten ++ [Move.look]).foldl (advance l) p).isFinished = true := by
  induction n generalizing p handed given with
  | zero =>
    have hwaiting := List.eq_nil_of_length_eq_zero hn
    simp [advance, step, look, hdispatch, hwaiting, hbusy, isFinished]
  | succ n ih =>
    obtain ⟨dir, rest, hwaiting⟩ := List.exists_cons_of_length_eq_add_one hn
    rw [List.replicate_succ, List.flatten_cons, List.append_assoc, List.foldl_append]
    cases hoff : p.calledOff with
    | none =>
      have hall := length_room h
      have hroom : p.results.length < p.room := by omega
      obtain ⟨schedule, hrun⟩ := exists_run_foldl l p turn
      have hturn := accounted_run h hrun
      rw [foldl_turn hdispatch hwaiting hbusy hoff h.workers hroom] at hturn ⊢
      refine ih hturn hdispatch hbusy ?_
      rw [hwaiting, List.length_cons] at hn
      exact Nat.succ.inj hn
    | some reason =>
      have hfinished : (turn.foldl (advance l) p).isFinished = true :=
        isFinished_foldl_turn hdispatch (by simp [hwaiting]) hbusy hoff
      rw [foldl_of_isFinished hfinished]
      · exact hfinished
      · intro m hm
        have hturn : ∀ m ∈ turn, Move.isOwn m = true := by decide
        simp only [List.mem_append, List.mem_flatten, List.mem_replicate, List.mem_singleton] at hm
        obtain ⟨_, ⟨-, rfl⟩, hm⟩ | rfl := hm
        · exact hturn m hm
        · rfl

/-- Working through the directories one by one is a schedule that ends. -/
theorem exists_run_finish (l : Linter σ) {workers : Nat} (hworkers : 0 < workers)
    (dirs : List Text) (s : σ) :
    (∃ schedule, (start l workers dirs s).run l schedule =
        some ((start l workers dirs s).finish l)) ∧
      ((start l workers dirs s).finish l).isFinished = true :=
  ⟨exists_run_foldl l _ _, isFinished_turns (accounted_start l hworkers dirs s) rfl rfl _ rfl⟩

end Pool

namespace Batch

open Pool

theorem sourceDirs_nodup {t : FileTree} {root : Text} {dirs : List Text}
    (h : t.sourceDirs root = .ok dirs) : dirs.Nodup := by
  unfold FileTree.sourceDirs at h
  split at h
  · cases h
  · cases h
    exact Text.sort_eraseDups_nodup _

/-- What is true of a pool for directories, `first`, and of the pool `last` that some schedule leads
to. -/
structure ScheduleLaw (l : Linter σ) (f : Text → Except Text (List Issue)) (dirs : List Text)
    (first : Pool σ) (schedule : List Move) (last : Pool σ) : Prop where
  /-- The directories are handed over in their order. -/
  inOrder : first.handed l schedule ++ last.waiting = dirs
  /-- No directory is linted twice, and none that was not handed over. -/
  atMostOnce : (first.given l schedule).Nodup ∧
    first.given l schedule ⊆ first.handed l schedule
  /-- In the end every directory that was handed over is linted. -/
  exactlyOnce : last.isFinished = true →
    (first.given l schedule).Perm (first.handed l schedule)
  /-- A worker can always deliver its result. -/
  deliverable : ∀ worker result, last.busy[worker]? = some (.done result) →
    (last.step l (.deliver worker)).isSome = true
  /-- Dispatcher or workers can always do something. -/
  progress : last.isFinished = false → ∃ m, m.isOwn = true ∧ (last.step l m).isSome = true
  /-- They cannot go on for ever. -/
  bounded : schedule.length ≤ 5 * dirs.length + 3
  /-- They can always come to an end. -/
  completes : ∃ rest q, (∀ m ∈ rest, Move.isOwn m = true) ∧ last.run l rest = some q ∧
    q.isFinished = true
  /-- Without a stop and without a failure there are the issues of all directories. -/
  complete : last.isFinished = true → last.stop = none → (∀ dir ∈ dirs, (f dir).isOk = true) →
    (ofPool last).error = none ∧
      ∃ order : List Text, order.Perm dirs ∧ (ofPool last).issues = order.flatMap (found f)
  /-- Without a stop a failure leaves nothing but itself. -/
  failed : last.isFinished = true → last.stop = none → (∃ dir ∈ dirs, (f dir).isOk = false) →
    (ofPool last).issues = [] ∧
      ∃ dir ∈ dirs, ∃ m, f dir = .error m ∧ (ofPool last).error = some (.failed m)
  /-- A stop leaves the issues of the directories that were handed over and did not fail. -/
  stopped : last.isFinished = true → ∀ reason, last.stop = some reason →
    last.calledOff = some reason ∧ (ofPool last).error = some (.stopped reason) ∧
      ∃ order : List Text, order.Perm (first.handed l schedule) ∧
        (ofPool last).issues = order.flatMap (found f)

/-- A stop is the error, and the issues found so far are kept. -/
theorem ofPool_of_stop {p : Pool σ} {reason : Text} (hstop : p.stop = some reason) :
    (ofPool p).error = some (.stopped reason) ∧ (ofPool p).issues = p.issues := by
  rw [ofPool, hstop]
  exact ⟨rfl, rfl⟩

/-- Without a stop, a failure is the error, and there are no issues. -/
theorem ofPool_of_failure {p : Pool σ} {m : Text} (hstop : p.stop = none)
    (hfailure : p.failure = some m) :
    (ofPool p).error = some (.failed m) ∧ (ofPool p).issues = [] := by
  rw [ofPool, hstop, hfailure]
  exact ⟨rfl, rfl⟩

theorem ofPool_of_none {p : Pool σ} (hstop : p.stop = none) (hfailure : p.failure = none) :
    (ofPool p).error = none ∧ (ofPool p).issues = p.issues := by
  rw [ofPool, hstop, hfailure]
  exact ⟨rfl, rfl⟩

/-- Every schedule of a pool for distinct directories keeps the law. -/
theorem scheduleLaw_of_nodup {l : Linter σ} {f : Text → Except Text (List Issue)}
    (hl : l.Answers f) {dirs : List Text} (hdirs : dirs.Nodup) {workers : Nat}
    (hworkers : 0 < workers) {s : σ} {schedule : List Move} {p : Pool σ}
    (hrun : (start l workers dirs s).run l schedule = some p) :
    ScheduleLaw l f dirs (start l workers dirs s) schedule p := by
  have h := accounted_run (accounted_start l hworkers dirs s) hrun
  have ha := answered_run hl (answered_start f l workers dirs s) hrun
  rw [List.nil_append, List.nil_append] at h
  constructor
  case inOrder => exact h.waiting
  case atMostOnce => exact ⟨given_nodup h hdirs, given_subset h⟩
  case exactlyOnce => exact given_perm_handed h
  case deliverable => exact fun _ _ => deliver_isSome h
  case progress => exact exists_move l h
  case bounded =>
    have hlength := length_add_work_le hrun
    have hwork := work_start l workers dirs s
    omega
  case completes => exact exists_completion l h
  case complete =>
    intro hfinished hstop hok
    obtain ⟨order, horder, hresults⟩ := exists_order h ha hfinished
    rw [handed_eq h hfinished hstop] at horder
    have hnone := (failure_eq_none_iff hresults).mpr fun dir hdir => hok dir (horder.subset hdir)
    obtain ⟨herror, hissues⟩ := ofPool_of_none hstop hnone
    exact ⟨herror, order, horder, hissues.trans (issues_of_order hresults)⟩
  case failed =>
    rintro hfinished hstop ⟨bad, hbad, hfails⟩
    obtain ⟨order, horder, hresults⟩ := exists_order h ha hfinished
    rw [handed_eq h hfinished hstop] at horder
    have hsome : p.failure ≠ none := by
      intro hnone
      have hok := (failure_eq_none_iff hresults).mp hnone bad (horder.symm.subset hbad)
      rw [hfails] at hok
      cases hok
    obtain ⟨m, hm⟩ := Option.ne_none_iff_exists'.mp hsome
    obtain ⟨dir, hdir, hf⟩ := exists_of_failure hresults hm
    obtain ⟨herror, hissues⟩ := ofPool_of_failure hstop hm
    exact ⟨hissues, dir, horder.subset hdir, m, hf, herror⟩
  case stopped =>
    intro hfinished reason hstop
    obtain ⟨order, horder, hresults⟩ := exists_order h ha hfinished
    obtain ⟨herror, hissues⟩ := ofPool_of_stop hstop
    exact ⟨calledOff_of_stop h hstop, herror, order, horder,
      hissues.trans (issues_of_order hresults)⟩

/-- The directories of a path are worked through by one of the schedules. -/
theorem exists_schedule_of_path (l : Linter σ) {t : FileTree} {root : Text} {n : FileNode}
    (hstat : t.stat root = .ok n) (hdir : n.isDir = true) {dirs : List Text}
    (hdirs : t.sourceDirs root = .ok dirs) (s : σ) :
    ∃ schedule last, (start l (max dirs.length 1) dirs s).run l schedule = some last ∧
      last.isFinished = true ∧ path l t root s = (ofPool last, last.state) := by
  obtain ⟨⟨schedule, hrun⟩, hfinished⟩ :=
    exists_run_finish l (Nat.lt_of_lt_of_le Nat.one_pos (Nat.le_max_right dirs.length 1)) dirs s
  refine ⟨schedule, _, hrun, hfinished, ?_⟩
  rw [path, hstat]
  simp only [hdir, if_true, hdirs]
  rfl

/-- Whatever the schedule, the directories of a path are handed over in order and linted once each,
nothing comes to a standstill, and what comes of them is as the law has it; and linting the path
follows one of the schedules. -/
theorem scheduleLaw {l : Linter σ} {f : Text → Except Text (List Issue)} (hl : l.Answers f)
    {t : FileTree} {root : Text} {dirs : List Text} (hdirs : t.sourceDirs root = .ok dirs) (s : σ) :
    (∀ workers, 0 < workers → ∀ schedule last,
      (start l workers dirs s).run l schedule = some last →
      ScheduleLaw l f dirs (start l workers dirs s) schedule last) ∧
    ∀ n, t.stat root = .ok n → n.isDir = true → ∃ schedule last,
      (start l (max dirs.length 1) dirs s).run l schedule = some last ∧
      last.isFinished = true ∧ path l t root s = (ofPool last, last.state) := by
  constructor
  · intro workers hworkers schedule last hrun
    exact scheduleLaw_of_nodup hl (sourceDirs_nodup hdirs) hworkers hrun
  · intro n hstat hdir
    exact exists_schedule_of_path l hstat hdir hdirs s

/-- Three packages, the second of which is no good. -/
def packages : FileNode :=
  .dir [("p", .dir [("a.go", .file "package p\n")]), ("q", .dir [("b.go", .file "package")]),
    ("r", .dir [("c.go", .file "package r\n")])]

theorem sourceDirs_packages :
    (FileTree.mk (.dir [("w", packages)]) "/w").sourceDirs "." =
      .ok [utf8 "p", utf8 "q", utf8 "r"] := by
  have hnode : (FileTree.mk (.dir [("w", packages)]) "/w").lstat "." = .ok packages := rfl
  have hdirs : (((FileTree.leaves "." packages).filter FileTree.isSourceName).map
      Path.dir).eraseDups = [utf8 "p", utf8 "q", utf8 "r"] := by
    simp only [packages, FileTree.leaves, FileTree.leavesOf]
    decide
  rw [FileTree.sourceDirs, hnode]
  simp only [hdirs]
  rw [Text.sort, List.mergeSort_of_pairwise (by decide)]

/-- What is said about the packages. -/
def answerOn (dir : Text) : Except Text (List Issue) :=
  if dir = utf8 "q" then .error "expected name"
  else .ok [⟨"totality-check", "totality", dir, "m", [], ⟨dir, 0, 1, 1⟩, ⟨dir, 1, 1, 2⟩, .error⟩]

/-- A linter for the packages. -/
def packageLinter : Linter Unit := ⟨fun dir s => (answerOn dir, s), fun _ => none⟩

/-- The second package is done before the first one, and the third one is not handed over. -/
def overtaking : List Move :=
  [.look, .handOver, .look, .handOver, .lint 1, .deliver 1, .look, .callOff cancelled, .lint 0,
    .giveUp, .deliver 0]

theorem scheduleLaw_overtaking :
    packageLinter.Answers answerOn ∧ ∃ last,
      (start packageLinter 2 [utf8 "p", utf8 "q", utf8 "r"] ()).run packageLinter overtaking =
        some last ∧
      last.isFinished = true ∧ last.stop = some cancelled ∧
      ScheduleLaw packageLinter answerOn [utf8 "p", utf8 "q", utf8 "r"]
        (start packageLinter 2 [utf8 "p", utf8 "q", utf8 "r"] ()) overtaking last := by
  have hanswers : packageLinter.Answers answerOn := fun _ _ => rfl
  refine ⟨hanswers, _, rfl, rfl, rfl, ?_⟩
  exact (scheduleLaw hanswers sourceDirs_packages ()).1 2 (by decide) overtaking _ rfl

end Batch

end CaseCover
