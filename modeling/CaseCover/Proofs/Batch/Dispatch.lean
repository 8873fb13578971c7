import CaseCover.Batch.Pool
import Mathlib.Algebra.GroupWithZero.Nat

/-!
# Schedules of a pool

Whatever the schedule, every directory that was handed over is with a busy worker or among the
results, and a worker gives its directory to the linter before it has a result (`Accounted`). Each
move keeps this, so every schedule does (`accounted_run`).

There is always room for a result, because there is room for one of each directory; so a pool that
is not finished can move (`exists_move`). Every move takes some of the work away (`work_step`), so
no schedule goes on for ever, and every one can be completed (`exists_completion`).
-/

namespace CaseCover

variable {σ : Type}

/-- The directory of a worker that has given it to the linter. -/
def Worker.linted? : Worker → Option Text
  | .linting _ => none
  | .done result => some result.dir

theorem Worker.linted?_done (result : DirResult) :
    (Worker.done result).linted? = some result.dir := rfl

/-- The moves that are left for a worker. -/
def Worker.work : Worker → Nat
  | .linting _ => 2
  | .done _ => 1

/-- The moves that are left for the dispatcher until it hands over a directory or closes. -/
def Dispatch.work : Dispatch → Nat
  | .looking => 2
  | .offering => 1
  | .closed _ => 0

namespace Pool

/-! ## Single moves -/

theorem exists_cut {α : Type} {l : List α} {i : Nat} {a : α} (h : l[i]? = some a) :
    ∃ front back, l = front ++ a :: back ∧ i = front.length := by
  obtain ⟨hi, rfl⟩ := List.getElem?_eq_some_iff.mp h
  refine ⟨l.take i, l.drop (i + 1), ?_, ?_⟩
  · rw [List.getElem_cons_drop, List.take_append_drop]
  · rw [List.length_take]
    omega

/-- What a move does to a pool. -/
inductive Change (l : Linter σ) (p q : Pool σ) : Move → Prop
  | close (hdispatch : p.dispatch = .looking) (hwaiting : p.waiting = [])
      (hq : q = { p with dispatch := .closed none }) : Change l p q .look
  | refuse {reason : Text} (hdispatch : p.dispatch = .looking) (hwaiting : p.waiting ≠ [])
      (hoff : p.calledOff = some reason) (hq : q = { p with dispatch := .closed (some reason) }) :
      Change l p q .look
  | offer (hdispatch : p.dispatch = .looking) (hwaiting : p.waiting ≠ [])
      (hq : q = { p with dispatch := .offering }) : Change l p q .look
  | handOver {dir : Text} {rest : List Text} (hdispatch : p.dispatch = .offering)
      (hwaiting : p.waiting = dir :: rest) (hq : q = { p with
        dispatch := .looking, waiting := rest, busy := p.busy ++ [.linting dir] }) :
      Change l p q .handOver
  | giveUp {reason : Text} (hdispatch : p.dispatch = .offering) (hoff : p.calledOff = some reason)
      (hq : q = { p with dispatch := .closed (some reason) }) : Change l p q .giveUp
  | lint {front back : List Worker} {dir : Text} (hbusy : p.busy = front ++ .linting dir :: back)
      (hq : q = { p with
        busy := front ++ .done ⟨dir, (l.run dir p.state).1⟩ :: back
        calledOff := p.calledOff <|> l.stopped (l.run dir p.state).2
        state := (l.run dir p.state).2 }) : Change l p q (.lint front.length)
  | deliver {front back : List Worker} {result : DirResult}
      (hbusy : p.busy = front ++ .done result :: back)
      (hq : q = { p with busy := front ++ back, results := p.results ++ [result] }) :
      Change l p q (.deliver front.length)
  | callOff {reason : Text} (hoff : p.calledOff = none)
      (hq : q = { p with calledOff := some reason }) : Change l p q (.callOff reason)

/-- Every possible move has its effect. -/
theorem change_of_step {l : Linter σ} {p q : Pool σ} {m : Move} (h : p.step l m = some q) :
    Change l p q m := by
  cases m with
  | look =>
    replace h : p.look = some q := h
    unfold look at h
    split at h
    · next hdispatch hwaiting => exact .close hdispatch hwaiting (Option.some.inj h).symm
    · next hdispatch hwaiting hoff =>
      exact .refuse hdispatch (by rw [hwaiting]; exact List.cons_ne_nil _ _) hoff
        (Option.some.inj h).symm
    · next hdispatch hwaiting _ =>
      exact .offer hdispatch (by rw [hwaiting]; exact List.cons_ne_nil _ _) (Option.some.inj h).symm
    · cases h
  | handOver =>
    replace h : p.handOver = some q := h
    unfold handOver at h
    split at h
    · next hdispatch hwaiting =>
      split at h
      · exact .handOver hdispatch hwaiting (Option.some.inj h).symm
      · cases h
    · cases h
  | giveUp =>
    replace h : p.giveUp = some q := h
    unfold giveUp at h
    split at h
    · next hdispatch hoff => exact .giveUp hdispatch hoff (Option.some.inj h).symm
    · cases h
  | lint worker =>
    replace h : p.lint l worker = some q := h
    unfold Pool.lint at h
    split at h
    · next dir hworker =>
      obtain ⟨front, back, hbusy, rfl⟩ := exists_cut hworker
      refine .lint hbusy ((Option.some.inj h).symm.trans ?_)
      simp [hbusy]
    · cases h
  | deliver worker =>
    replace h : p.deliver worker = some q := h
    unfold Pool.deliver at h
    split at h
    · next result hworker =>
      obtain ⟨front, back, hbusy, rfl⟩ := exists_cut hworker
      split at h
      · refine .deliver hbusy ((Option.some.inj h).symm.trans ?_)
        simp [hbusy, List.eraseIdx_append_of_length_le]
      · cases h
    · cases h
  | callOff reason =>
    rw [step] at h
    split at h
    · next hoff => exact .callOff (Option.isNone_iff_eq_none.mp hoff) (Option.some.inj h).symm
    · cases h

theorem run_cons (l : Linter σ) (p : Pool σ) (m : Move) (ms : List Move) :
    p.run l (m :: ms) = (p.step l m).bind fun q => q.run l ms := rfl

/-! ## Directories -/

/-- The directory that a move hands to a worker. -/
def handedBy (p : Pool σ) : Move → List Text
  | .handOver => p.waiting.take 1
  | _ => []

/-- The directory that a move gives to the linter. -/
def givenBy (p : Pool σ) : Move → List Text
  | .lint worker =>
    match p.busy[worker]? with
    | some (.linting dir) => [dir]
    | _ => []
  | _ => []

/-- What the moves of a schedule contribute, one after the other. -/
def gathered (l : Linter σ) (f : Pool σ → Move → List Text) : Pool σ → List Move → List Text
  | _, [] => []
  | p, m :: ms =>
    match p.step l m with
    | some q => f p m ++ gathered l f q ms
    | none => []

/-- The directories that a schedule hands over, in order. -/
def handed (l : Linter σ) (p : Pool σ) (schedule : List Move) : List Text :=
  gathered l handedBy p schedule

/-- The directories that a schedule gives to the linter, in order. -/
def given (l : Linter σ) (p : Pool σ) (schedule : List Move) : List Text :=
  gathered l givenBy p schedule

/-- The pool accounts for the directories that were handed over, and for those that the linter was
given. -/
structure Accounted (dirs handed given : List Text) (p : Pool σ) : Prop where
  workers : 0 < p.workers
  room : p.room = dirs.length
  /-- What was handed over comes first. -/
  waiting : handed ++ p.waiting = dirs
  /-- What was handed over is with a worker or among the results. -/
  held : handed.Perm (p.busy.map Worker.dir ++ p.results.map DirResult.dir)
  /-- The linter was given what has a result. -/
  linted : given.Perm (p.busy.filterMap Worker.linted? ++ p.results.map DirResult.dir)
  /-- Only something that is there is offered. -/
  offered : p.dispatch = .offering → p.waiting ≠ []
  /-- Without a reason nothing is left over. -/
  closed : p.dispatch = .closed none → p.waiting = []
  /-- The reason is why the work was called off. -/
  stopped : ∀ reason, p.dispatch = .closed (some reason) → p.calledOff = some reason

theorem accounted_start (l : Linter σ) {workers : Nat} (hworkers : 0 < workers) (dirs : List Text)
    (s : σ) : Accounted dirs [] [] (start l workers dirs s) where
  workers := hworkers
  room := rfl
  waiting := rfl
  held := .refl _
  linted := .refl _
  offered := nofun
  closed := nofun
  stopped := nofun

variable {l : Linter σ} {dirs handed given : List Text} {p q : Pool σ}

/-- A move of the dispatcher or of the outside world that hands nothing over leaves all directories
where they are. -/
theorem Accounted.of_same (h : Accounted dirs handed given p) {dispatch : Dispatch}
    {calledOff : Option Text} (hoffered : dispatch = .offering → p.waiting ≠ [])
    (hclosed : dispatch = .closed none → p.waiting = [])
    (hstopped : ∀ reason, dispatch = .closed (some reason) → calledOff = some reason) :
    Accounted dirs (handed ++ []) (given ++ []) { p with dispatch, calledOff } := by
  rw [List.append_nil, List.append_nil]
  exact ⟨h.workers, h.room, h.waiting, h.held, h.linted, hoffered, hclosed, hstopped⟩

/-- One of several directories comes last. -/
theorem perm_moved (a b c : List Text) (dir : Text) :
    (a ++ dir :: b ++ c).Perm (a ++ b ++ (c ++ [dir])) := by
  rw [← List.append_assoc]
  exact (List.perm_middle.append_right c).trans (List.perm_append_singleton dir _).symm

/-- Handing over moves a directory from those waiting to a worker. -/
theorem accounted_handOver (h : Accounted dirs handed given p) {dir : Text} {rest : List Text}
    (hnext : p.waiting = dir :: rest) :
    Accounted dirs (handed ++ [dir]) (given ++ [])
      { p with dispatch := .looking, waiting := rest, busy := p.busy ++ [.linting dir] } where
  workers := h.workers
  room := h.room
  waiting := by rw [← h.waiting, hnext, List.append_assoc, List.singleton_append]
  held := by
    have hmoved := (perm_moved (p.busy.map Worker.dir) [] (p.results.map DirResult.dir) dir).symm
    rw [List.append_nil, ← List.append_assoc] at hmoved
    rw [List.map_append]
    exact (h.held.append_right [dir]).trans hmoved
  linted := by
    rw [List.append_nil, List.filterMap_append]
    simpa [List.filterMap_cons, Worker.linted?] using h.linted
  offered := nofun
  closed := nofun
  stopped := nofun

/-- Linting turns the directory of a worker into a result of it. -/
theorem accounted_lint (h : Accounted dirs handed given p) {front back : List Worker} {dir : Text}
    (hbusy : p.busy = front ++ .linting dir :: back) (outcome : Except Text (List Issue))
    (off : Option Text) (state : σ) :
    Accounted dirs (handed ++ []) (given ++ [dir])
      { p with
        busy := front ++ .done ⟨dir, outcome⟩ :: back
        calledOff := p.calledOff <|> off
        state } where
  workers := h.workers
  room := h.room
  waiting := by rw [List.append_nil, h.waiting]
  held := by
    rw [List.append_nil]
    simpa [hbusy, Worker.dir] using h.held
  linted := by
    have hmoved := (perm_moved (front.filterMap Worker.linted?) (back.filterMap Worker.linted?)
      (p.results.map DirResult.dir) dir).symm
    have hlinted := h.linted
    rw [hbusy, List.filterMap_append, List.filterMap_cons_none rfl] at hlinted
    rw [← List.append_assoc] at hmoved
    rw [List.filterMap_append, List.filterMap_cons_some (Worker.linted?_done _)]
    exact (hlinted.append_right [dir]).trans hmoved
  offered := h.offered
  closed := h.closed
  stopped := fun reason hreason => by rw [h.stopped reason hreason]; rfl

/-- Delivering moves a result from a worker to the others. -/
theorem accounted_deliver (h : Accounted dirs handed given p) {front back : List Worker}
    {result : DirResult} (hbusy : p.busy = front ++ .done result :: back) :
    Accounted dirs (handed ++ []) (given ++ [])
      { p with busy := front ++ back, results := p.results ++ [result] } where
  workers := h.workers
  room := h.room
  waiting := by rw [List.append_nil, h.waiting]
  held := by
    have hheld := h.held
    rw [hbusy, List.map_append, List.map_cons] at hheld
    rw [List.append_nil, List.map_append, List.map_append]
    exact hheld.trans (perm_moved _ _ _ result.dir)
  linted := by
    have hlinted := h.linted
    rw [hbusy, List.filterMap_append,
      List.filterMap_cons_some (Worker.linted?_done result)] at hlinted
    rw [List.append_nil, List.filterMap_append, List.map_append]
    exact hlinted.trans (perm_moved _ _ _ result.dir)
  offered := h.offered
  closed := h.closed
  stopped := h.stopped

/-- Every move keeps the account. -/
theorem accounted_step (h : Accounted dirs handed given p) {m : Move}
    (hstep : p.step l m = some q) :
    Accounted dirs (handed ++ p.handedBy m) (given ++ p.givenBy m) q := by
  cases change_of_step hstep with
  | close _ hempty hq =>
    subst hq
    exact h.of_same nofun (fun _ => hempty) nofun
  | refuse _ _ hoff hq =>
    subst hq
    exact h.of_same nofun nofun fun _ hr => by cases hr; exact hoff
  | offer _ hne hq =>
    subst hq
    exact h.of_same (fun _ => hne) nofun nofun
  | handOver _ hnext hq =>
    subst hq
    rw [handedBy, hnext]
    exact accounted_handOver h hnext
  | giveUp _ hoff hq =>
    subst hq
    exact h.of_same nofun nofun fun _ hr => by cases hr; exact hoff
  | lint hbusy hq =>
    subst hq
    rw [givenBy, hbusy, List.getElem?_append_right (Nat.le_refl _), Nat.sub_self]
    exact accounted_lint h hbusy _ _ _
  | deliver hbusy hq =>
    subst hq
    exact accounted_deliver h hbusy
  | callOff hoff hq =>
    subst hq
    refine h.of_same h.offered h.closed fun reason hr => ?_
    have hsome := h.stopped reason hr
    rw [hoff] at hsome
    cases hsome

/-- Every schedule keeps the account. -/
theorem accounted_run (h : Accounted dirs handed given p) {schedule : List Move}
    (hrun : p.run l schedule = some q) :
    Accounted dirs (handed ++ p.handed l schedule) (given ++ p.given l schedule) q := by
  induction schedule generalizing p handed given with
  | nil =>
    cases hrun
    rw [Pool.handed, Pool.given, gathered, gathered, List.append_nil, List.append_nil]
    exact h
  | cons m ms ih =>
    rw [run_cons] at hrun
    obtain ⟨r, hstep, hrest⟩ := Option.bind_eq_some_iff.mp hrun
    have := ih (accounted_step h hstep) hrest
    rw [List.append_assoc, List.append_assoc] at this
    rw [Pool.handed, Pool.given, gathered, gathered, hstep]
    exact this

/-! ## Who has what -/

theorem filterMap_linted?_sublist (ws : List Worker) :
    (ws.filterMap Worker.linted?).Sublist (ws.map Worker.dir) := by
  induction ws with
  | nil => exact .slnil
  | cons w ws ih =>
    cases w with
    | linting dir => exact ih.cons dir
    | done result => exact ih.cons_cons result.dir

/-- What the linter was given is part of what was handed over. -/
theorem exists_sublist_handed (h : Accounted dirs handed given p) :
    ∃ part, given.Perm part ∧ ∃ whole, part.Sublist whole ∧ whole.Perm handed :=
  ⟨_, h.linted, _, (filterMap_linted?_sublist p.busy).append_right _, h.held.symm⟩

/-- No directory is handed over twice. -/
theorem handed_nodup (h : Accounted dirs handed given p) (hdirs : dirs.Nodup) : handed.Nodup := by
  rw [← h.waiting] at hdirs
  exact hdirs.sublist (List.sublist_append_left _ _)

theorem given_nodup (h : Accounted dirs handed given p) (hdirs : dirs.Nodup) : given.Nodup := by
  obtain ⟨part, hpart, whole, hsub, hwhole⟩ := exists_sublist_handed h
  have hnodup : whole.Nodup := hwhole.nodup_iff.mpr (handed_nodup h hdirs)
  exact hpart.nodup_iff.mpr (hnodup.sublist hsub)

/-- Only directories that were handed over are given to the linter. -/
theorem given_subset (h : Accounted dirs handed given p) : given ⊆ handed := by
  obtain ⟨part, hpart, whole, hsub, hwhole⟩ := exists_sublist_handed h
  intro dir hdir
  exact hwhole.subset (hsub.subset (hpart.subset hdir))

/-! ## Room -/

/-- There is room for the results of all that is busy or waiting. -/
theorem length_room (h : Accounted dirs handed given p) :
    p.results.length + p.busy.length + p.waiting.length = p.room := by
  have hheld := h.held.length_eq
  have hall := congrArg List.length h.waiting
  simp only [List.length_append, List.length_map] at hheld hall
  rw [h.room]
  omega

/-- A worker can always deliver its result. -/
theorem deliver_isSome (h : Accounted dirs handed given p) {worker : Nat} {result : DirResult}
    (hworker : p.busy[worker]? = some (.done result)) : (p.deliver worker).isSome = true := by
  have hbusy := List.length_pos_of_mem (List.mem_of_getElem? hworker)
  have hroom := length_room h
  have hlt : p.results.length < p.room := by omega
  rw [deliver, hworker]
  simp [hlt]

/-! ## Progress -/

/-- A move of the dispatcher or of a worker. -/
def Move.isOwn : Move → Bool
  | .callOff _ => false
  | _ => true

/-- The first of some busy workers can move. -/
theorem exists_worker_move (l : Linter σ) (h : Accounted dirs handed given p)
    (hbusy : p.busy ≠ []) :
    ∃ m, m.isOwn = true ∧ (p.step l m).isSome = true := by
  obtain ⟨w, rest, hw⟩ := List.exists_cons_of_ne_nil hbusy
  cases w with
  | linting dir =>
    refine ⟨.lint 0, rfl, ?_⟩
    rw [step, Pool.lint, hw]
    rfl
  | done result => exact ⟨.deliver 0, rfl, deliver_isSome h (by rw [hw]; rfl)⟩

/-- A pool that is not finished can move, whatever the outside world does. -/
theorem exists_move (l : Linter σ) (h : Accounted dirs handed given p)
    (hfinished : p.isFinished = false) : ∃ m, m.isOwn = true ∧ (p.step l m).isSome = true := by
  cases hdispatch : p.dispatch with
  | looking =>
    refine ⟨.look, rfl, ?_⟩
    rw [step, look, hdispatch]
    cases p.waiting with
    | nil => rfl
    | cons dir rest => cases p.calledOff <;> rfl
  | offering =>
    obtain ⟨dir, rest, hwaiting⟩ := List.exists_cons_of_ne_nil (h.offered hdispatch)
    by_cases hfree : p.busy.length < p.workers
    · refine ⟨.handOver, rfl, ?_⟩
      rw [step, handOver, hdispatch, hwaiting]
      simp [hfree]
    · -- all workers are busy, and there is one
      have hworkers := h.workers
      exact exists_worker_move l h (List.length_pos_iff.mp (by omega))
  | closed reason =>
    refine exists_worker_move l h fun hnil => ?_
    rw [isFinished, hdispatch, hnil] at hfinished
    cases hfinished

/-! ## Work -/

/-- The moves that are left, at most: five for each directory that waits, those of the dispatcher
and of the workers, and one of the outside world. -/
def work (p : Pool σ) : Nat :=
  5 * p.waiting.length + p.dispatch.work + (p.busy.map Worker.work).sum +
    if p.calledOff.isNone then 1 else 0

/-- Every move takes some of the work away. -/
theorem work_step {m : Move} (hstep : p.step l m = some q) : q.work < p.work := by
  unfold work
  cases change_of_step hstep with
  | close hdispatch _ hq | refuse hdispatch _ _ hq | offer hdispatch _ hq | giveUp hdispatch _ hq =>
    subst hq
    simp only [hdispatch, Dispatch.work]
    omega
  | handOver hdispatch hnext hq =>
    subst hq
    simp only [hdispatch, hnext, Dispatch.work, List.length_cons, List.map_append,
      List.sum_append_nat, List.map_cons, List.map_nil, List.sum_cons, List.sum_nil, Worker.work]
    omega
  | @lint front back dir hbusy hq =>
    subst hq
    -- the linter may call the work off, but nothing takes that back
    have hoff : (if (p.calledOff <|> l.stopped (l.run dir p.state).2).isNone then 1 else 0) ≤
        if p.calledOff.isNone then 1 else 0 := by
      cases p.calledOff with
      | none => split <;> simp
      | some reason => exact Nat.le_refl 0
    simp only [hbusy, List.map_append, List.sum_append_nat, List.map_cons, List.sum_cons,
      Worker.work]
    omega
  | deliver hbusy hq =>
    subst hq
    simp only [hbusy, List.map_append, List.sum_append_nat, List.map_cons, List.sum_cons,
      Worker.work]
    omega
  | callOff hoff hq =>
    subst hq
    simp [hoff]

/-- A schedule has at most as many moves as there is work. -/
theorem length_add_work_le {schedule : List Move} (hrun : p.run l schedule = some q) :
    schedule.length + q.work ≤ p.work := by
  induction schedule generalizing p with
  | nil =>
    cases hrun
    simp
  | cons m ms ih =>
    rw [run_cons] at hrun
    obtain ⟨r, hstep, hrest⟩ := Option.bind_eq_some_iff.mp hrun
    have hm := work_step hstep
    have hms := ih hrest
    rw [List.length_cons]
    omega

/-- At the start there is work for at most five moves on each directory, and three more. -/
theorem work_start (l : Linter σ) (workers : Nat) (dirs : List Text) (s : σ) :
    (start l workers dirs s).work ≤ 5 * dirs.length + 3 := by
  unfold work start
  split <;> simp [Dispatch.work]

/-- Every schedule can be completed by dispatcher and workers. -/
theorem exists_completion (l : Linter σ) (h : Accounted dirs handed given p) :
    ∃ rest q, (∀ m ∈ rest, Move.isOwn m = true) ∧ p.run l rest = some q ∧ q.isFinished = true := by
  induction hn : p.work using Nat.strongRecOn generalizing p handed given with
  | ind n ih =>
    cases hfinished : p.isFinished with
    | true => exact ⟨[], p, by simp, rfl, hfinished⟩
    | false =>
      obtain ⟨m, hown, hsome⟩ := exists_move l h hfinished
      obtain ⟨r, hstep⟩ := Option.isSome_iff_exists.mp hsome
      obtain ⟨rest, q, hrest, hrun, hq⟩ :=
        ih r.work (hn ▸ work_step hstep) (accounted_step h hstep) rfl
      refine ⟨m :: rest, q, ?_, ?_, hq⟩
      · exact List.forall_mem_cons.mpr ⟨hown, hrest⟩
      · rw [run_cons, hstep]
        exact hrun

end Pool

end CaseCover
