import CaseCover.Proofs.Watch.Observation

/-!
# What a session waits for

A session waits until its count is back at zero. The count goes up where a timer is armed that was
not, and down where an armed timer is stopped or a visit ends; a timer that goes off turns into a
visit and leaves the count alone. So the count is the number of armed timers and of visits, also
when a timer is armed again after it went off, when a late visit takes a newer timer off the list of
pending ones, and when armed timers are not on that list as the session is called off
(`Balanced`).

A timer that is armed stays so until it goes off or the pending timers are stopped (`armed_run`),
and noticing a change leaves an armed timer behind (`exists_armed_arm`).
-/

namespace CaseCover

namespace Watch

variable {e : Engine} {w w' : Watch} {m : Move} {dir : Text} {n : Nat}

/-! ## Timers -/

theorem getElem?_set_timer {timers : List Timer} {k : Nat} {timer : Timer} {armed : Bool}
    (hn : timers[n]? = some ⟨dir, armed⟩) (hk : timers[k]? = some timer) (armed' : Bool) :
    ∃ armed'', (timers.set n ⟨dir, armed'⟩)[k]? = some ⟨timer.dir, armed''⟩ := by
  by_cases hkn : n = k
  · subst hkn
    rw [hn] at hk
    cases hk
    obtain ⟨hlt, -⟩ := List.getElem?_eq_some_iff.mp hn
    exact ⟨armed', List.getElem?_set_self hlt⟩
  · exact ⟨timer.armed, by rw [List.getElem?_set_ne hkn, hk]⟩

/-- Setting a timer changes the number of armed ones by it alone. -/
theorem countP_armed_set {timers : List Timer} {armed : Bool}
    (hn : timers[n]? = some ⟨dir, armed⟩) (armed' : Bool) :
    (timers.set n ⟨dir, armed'⟩).countP Timer.armed + armed.toNat =
      timers.countP Timer.armed + armed'.toNat := by
  obtain ⟨hlt, hget⟩ := List.getElem?_eq_some_iff.mp hn
  have hpos : armed = true → 0 < timers.countP Timer.armed := by
    rintro rfl
    exact List.countP_pos_iff.mpr ⟨_, List.mem_of_getElem? hn, rfl⟩
  rw [List.countP_set hlt, hget]
  cases armed with
  | true =>
    have := hpos rfl
    cases armed' <;> simp <;> omega
  | false => cases armed' <;> simp

/-- Every pending timer is there, and it is a timer of the directory that it is pending for. -/
def PendingKnown (w : Watch) : Prop :=
  ∀ p ∈ w.pending, ∃ armed, w.timers[p.2]? = some ⟨p.1, armed⟩

/-- Pending timers stay known as long as timers keep their directories. -/
theorem PendingKnown.of_timers (h : w.PendingKnown) (hpending : ∀ p ∈ w'.pending, p ∈ w.pending)
    (htimers : ∀ (k : Nat) timer, w.timers[k]? = some timer →
      ∃ armed, w'.timers[k]? = some ⟨timer.dir, armed⟩) : w'.PendingKnown := by
  intro p hp
  obtain ⟨armed, htimer⟩ := h p (hpending p hp)
  exact htimers p.2 _ htimer

/-- The three ways of arming: a timer is put off, armed again, or new. -/
theorem arm_cases (h : w.PendingKnown) (dir : Text) :
    (∃ n : Nat, w.timers[n]? = some ⟨dir, true⟩ ∧ w.arm dir = w) ∨
    (∃ n : Nat, w.timers[n]? = some ⟨dir, false⟩ ∧
      w.arm dir = { w with
        timers := w.timers.set n ⟨dir, true⟩
        awaited := w.awaited + 1 }) ∨
    w.arm dir = { w with
      timers := w.timers ++ [⟨dir, true⟩]
      pending := (dir, w.timers.length) :: w.pending
      awaited := w.awaited + 1 } := by
  unfold arm
  cases hlookup : w.pending.lookup dir with
  | none => exact .inr (.inr rfl)
  | some n =>
    obtain ⟨front, back, hpending, -⟩ := List.lookup_eq_some_iff.mp hlookup
    obtain ⟨armed, htimer⟩ := h (dir, n) (by rw [hpending]; simp)
    cases armed with
    | true => exact .inl ⟨n, htimer, by simp only [htimer, if_true]⟩
    | false =>
      exact .inr (.inl ⟨n, htimer, by simp only [htimer, Bool.false_eq_true, if_false]⟩)

/-- After arming, a timer of the directory is armed. -/
theorem exists_armed_arm (h : w.PendingKnown) (dir : Text) :
    ∃ n : Nat, (w.arm dir).timers[n]? = some ⟨dir, true⟩ := by
  rcases arm_cases h dir with ⟨n, hn, harm⟩ | ⟨n, hn, harm⟩ | harm
  · exact ⟨n, by rw [harm, hn]⟩
  · obtain ⟨hlt, -⟩ := List.getElem?_eq_some_iff.mp hn
    exact ⟨n, by rw [harm]; exact List.getElem?_set_self hlt⟩
  · exact ⟨w.timers.length, by rw [harm]; exact List.getElem?_concat_length⟩

/-! ## The count -/

/-- The session waits for the armed timers and for the visits, and knows its pending timers. -/
structure Balanced (w : Watch) : Prop where
  count : w.awaited = w.timers.countP Timer.armed + w.visits.length
  known : w.PendingKnown

theorem balanced_idle (t : FileTree) (dirs : List Text) : Balanced (idle t dirs) where
  count := rfl
  known := nofun

/-- A new timer is waited for, one that is put off was so before. -/
theorem balanced_arm (h : Balanced w) (dir : Text) : Balanced (w.arm dir) := by
  have hcount := h.count
  rcases arm_cases h.known dir with ⟨n, hn, harm⟩ | ⟨n, hn, harm⟩ | harm
  · rw [harm]
    exact h
  · rw [harm]
    constructor
    · have hset := countP_armed_set hn true
      simp only [Bool.toNat_true, Bool.toNat_false] at hset ⊢
      omega
    · exact h.known.of_timers (fun _ hp => hp) fun k timer hk => getElem?_set_timer hn hk true
  · rw [harm]
    constructor
    · simp only [List.countP_append, List.countP_singleton, if_true]
      omega
    · intro p hp
      rcases List.mem_cons.mp hp with rfl | hp
      · exact ⟨true, List.getElem?_concat_length⟩
      · obtain ⟨armed, htimer⟩ := h.known p hp
        obtain ⟨hlt, -⟩ := List.getElem?_eq_some_iff.mp htimer
        exact ⟨armed, by rw [List.getElem?_append_left hlt, htimer]⟩

/-- A timer that goes off is no longer waited for, but its visit is. -/
theorem balanced_fire (h : Balanced w) (htimer : w.timers[n]? = some ⟨dir, true⟩) :
    Balanced { w with
      timers := w.timers.set n ⟨dir, false⟩
      visits := w.visits ++ [⟨dir, .enter⟩] } := by
  constructor
  · have hset := countP_armed_set htimer false
    have hcount := h.count
    simp only [Bool.toNat_true, Bool.toNat_false, List.length_append, List.length_singleton]
      at hset ⊢
    omega
  · exact h.known.of_timers (fun _ hp => hp) fun k timer hk => getElem?_set_timer htimer hk false

/-- A step of a visit adds nothing to what is pending. -/
theorem mem_pending_visitStep {stage : Stage} {p : Text × Nat}
    (h : p ∈ (w.visitStep e dir stage).1.pending) : p ∈ w.pending := by
  cases stage with
  | enter => exact (List.mem_filter.mp h).1
  | _ => exact h

/-- A step of a visit counts it off if it has ended. -/
theorem awaited_visitStep (e : Engine) (w : Watch) (dir : Text) (stage : Stage) :
    (w.visitStep e dir stage).1.awaited + 1 =
      w.awaited + (w.visitStep e dir stage).2.toList.length := by
  cases stage <;> simp [visitStep]

/-- A visit is waited for until it has ended. -/
theorem balanced_proceed {i : Nat} {stage : Stage} (e : Engine) (h : Balanced w)
    (hvisit : w.visits[i]? = some ⟨dir, stage⟩) :
    Balanced { (w.visitStep e dir stage).1 with
      visits := replaced w.visits i
        ((w.visitStep e dir stage).2.map fun next => ⟨dir, next⟩) } := by
  constructor
  · have hlength := length_replaced hvisit ((w.visitStep e dir stage).2.map fun next => ⟨dir, next⟩)
    have hawaited := awaited_visitStep e w dir stage
    have hcount := h.count
    simp only [Option.length_toList, Option.isSome_map, visitStep_timers] at hlength hawaited ⊢
    omega
  · refine h.known.of_timers (fun _ => mem_pending_visitStep) fun k timer hk => ?_
    exact ⟨timer.armed, (congrArg (·[k]?) (visitStep_timers e w dir stage)).trans hk⟩

/-- Stopping a timer that has gone off counts for nothing. -/
theorem balanced_stopTimer (h : Balanced w) (n : Nat) : Balanced (w.stopTimer n) := by
  unfold stopTimer
  split
  · next dir htimer =>
    constructor
    · have hset := countP_armed_set htimer false
      have hcount := h.count
      simp only [Bool.toNat_true, Bool.toNat_false] at hset ⊢
      omega
    · exact h.known.of_timers (fun _ hp => hp) fun k timer hk => getElem?_set_timer htimer hk false
  · exact h

theorem balanced_sweep (h : Balanced w) : Balanced w.sweep :=
  -- No timer is pending afterwards, so there is only the count to show.
  ⟨(foldl_stopTimer_induct (P := Balanced) (fun _ n h => balanced_stopTimer h n) w.pending h).count,
    nofun⟩

/-- Every step keeps the balance. -/
theorem balanced_step (h : Balanced w) (hstep : w.step e m = some w') : Balanced w' := by
  cases taken_of_step hstep with
  | write path content => exact ⟨h.count, h.known⟩
  | arm event hopen => exact balanced_arm h _
  | overlook event hopen => exact h
  | fire htimer => exact balanced_fire h htimer
  | proceed hvisit => exact balanced_proceed e h hvisit
  | callOff => exact ⟨h.count, h.known⟩
  | sweep hopen => exact balanced_sweep h
  | close hswept hopen hzero => exact ⟨h.count, h.known⟩

theorem balanced_run {moves : List Move} (h : Balanced w) (hrun : w.run e moves = some w') :
    Balanced w' :=
  run_induct (fun _ _ _ => balanced_step) h hrun

/-! ## Sessions that are over -/

/-- A session that is over notices no changes and waits for nothing. -/
def OverIsDone (w : Watch) : Prop := w.isOver = true → w.swept = true ∧ w.awaited = 0

/-- Where nothing is waited for, no timer is armed and no visit goes on. -/
theorem Balanced.nothing_left (h : Balanced w) (hzero : w.awaited = 0) :
    (∀ timer ∈ w.timers, timer.armed = false) ∧ w.visits = [] := by
  have hcount := h.count
  rw [hzero] at hcount
  constructor
  · intro timer htimer
    have hcount : w.timers.countP Timer.armed = 0 := by omega
    exact Bool.eq_false_iff.mpr (List.countP_eq_zero.mp hcount timer htimer)
  · exact List.length_eq_zero_iff.mp (by omega)

/-- In a session that is over, only files are written. -/
theorem step_of_isOver (h : Balanced w) (hdone : w.OverIsDone) (hover : w.isOver = true)
    (hstep : w.step e m = some w') :
    w'.isOver = true ∧ w'.swept = true ∧ w'.awaited = 0 ∧ w'.reports = w.reports := by
  obtain ⟨hswept, hzero⟩ := hdone hover
  obtain ⟨hidle, hvisits⟩ := h.nothing_left hzero
  cases taken_of_step hstep with
  | write path content => exact ⟨hover, hswept, hzero, rfl⟩
  | arm event hopen =>
    rw [hswept] at hopen
    cases hopen
  | overlook event hopen => exact ⟨hover, hswept, hzero, rfl⟩
  | fire htimer => cases hidle _ (List.mem_of_getElem? htimer)
  | proceed hvisit =>
    rw [hvisits] at hvisit
    cases hvisit
  | callOff => exact ⟨hover, hswept, hzero, rfl⟩
  | sweep hopen =>
    rw [hswept] at hopen
    cases hopen
  | close hswept hopen hzero =>
    rw [hover] at hopen
    cases hopen

theorem isOver_arm (w : Watch) (dir : Text) : (w.arm dir).isOver = w.isOver := by
  obtain ⟨timers, pending, awaited, harm⟩ := exists_arm_eq w dir
  rw [harm]

theorem isOver_sweep (w : Watch) : w.sweep.isOver = w.isOver := by
  obtain ⟨timers, awaited, hsweep⟩ := exists_sweep_eq w
  rw [hsweep]

/-- A session gets over only by being closed, and then nothing is left to wait for. -/
theorem overIsDone_step (h : Balanced w) (hdone : w.OverIsDone) (hstep : w.step e m = some w') :
    w'.OverIsDone := by
  intro hover'
  by_cases hover : w.isOver = true
  · obtain ⟨-, hswept, hzero, -⟩ := step_of_isOver h hdone hover hstep
    exact ⟨hswept, hzero⟩
  · cases taken_of_step hstep with
    | write path content => exact absurd hover' hover
    | arm event hopen => exact absurd ((isOver_arm w _).symm.trans hover') hover
    | overlook event hopen => exact absurd hover' hover
    | fire htimer => exact absurd hover' hover
    | @proceed i dir stage hvisit => exact absurd (by cases stage <;> exact hover') hover
    | callOff => exact absurd hover' hover
    | sweep hopen => exact absurd ((isOver_sweep w).symm.trans hover') hover
    | close hswept hopen hzero => exact ⟨hswept, hzero⟩

/-- In every run, a session that is over has nothing left to wait for. -/
theorem overIsDone_run {moves : List Move} (h : Balanced w) (hdone : w.OverIsDone)
    (hrun : w.run e moves = some w') : w'.OverIsDone := by
  -- the step needs the balance, which is kept along with it
  have hkept := run_induct (P := fun w => Balanced w ∧ w.OverIsDone)
    (fun _ _ _ ⟨h, hdone⟩ hstep => ⟨balanced_step h hstep, overIsDone_step h hdone hstep⟩)
    ⟨h, hdone⟩ hrun
  exact hkept.2

/-- A session that is over stays over and reports nothing more. -/
theorem run_of_isOver {moves : List Move} (h : Balanced w) (hdone : w.OverIsDone)
    (hover : w.isOver = true) (hrun : w.run e moves = some w') :
    w'.isOver = true ∧ w'.reports = w.reports := by
  refine (run_induct (P := fun w₁ => Balanced w₁ ∧ w₁.OverIsDone ∧ w₁.isOver = true ∧
    w₁.reports = w.reports) ?_ ⟨h, hdone, hover, rfl⟩ hrun).2.2
  rintro w₁ m w₂ ⟨h₁, hdone₁, hover₁, hreports₁⟩ hstep
  obtain ⟨hover₂, -, -, hreports₂⟩ := step_of_isOver h₁ hdone₁ hover₁ hstep
  exact ⟨balanced_step h₁ hstep, overIsDone_step h₁ hdone₁ hstep, hover₂,
    hreports₂.trans hreports₁⟩

/-! ## Changes are followed by visits -/

/-- In a run of a session, a timer of the directory goes off. -/
def Starts (e : Engine) (w : Watch) (dir : Text) (moves : List Move) : Prop :=
  ∃ before n after w₁, moves = before ++ .fire n :: after ∧ w.run e before = some w₁ ∧
    w₁.timers[n]? = some ⟨dir, true⟩

theorem Starts.cons {moves : List Move} {w₁ : Watch} (hstep : w.step e m = some w₁)
    (h : Starts e w₁ dir moves) : Starts e w dir (m :: moves) := by
  obtain ⟨before, n, after, w₂, rfl, hrun, htimer⟩ := h
  refine ⟨m :: before, n, after, w₂, rfl, ?_, htimer⟩
  rw [run, List.foldlM_cons, hstep]
  exact hrun

theorem armed_arm {d : Text} (h : w.timers[n]? = some ⟨dir, true⟩) :
    (w.arm d).timers[n]? = some ⟨dir, true⟩ := by
  unfold arm
  split
  · next k _ =>
    split
    · next timer htimer =>
      split
      · exact h
      · next hidle =>
        -- The timer that is armed again was idle, so it is another one.
        have hne : k ≠ n := by
          rintro rfl
          rw [h] at htimer
          cases htimer
          exact hidle rfl
        simp only [List.getElem?_set_ne hne, h]
    · exact h
  · obtain ⟨hlt, -⟩ := List.getElem?_eq_some_iff.mp h
    simp only [List.getElem?_append_left hlt, h]

/-- An armed timer stays armed but for going off and for the stopping of pending timers. -/
theorem armed_step (h : w.timers[n]? = some ⟨dir, true⟩) (hstep : w.step e m = some w') :
    m = .fire n ∨ m = .sweep ∨ w'.timers[n]? = some ⟨dir, true⟩ := by
  cases taken_of_step hstep with
  | write path content => exact .inr (.inr h)
  | arm event hopen => exact .inr (.inr (armed_arm h))
  | overlook event hopen => exact .inr (.inr h)
  | @fire k d htimer =>
    by_cases hk : k = n
    · exact .inl (by rw [hk])
    · exact .inr (.inr (by simp only [List.getElem?_set_ne hk, h]))
  | proceed hvisit => exact .inr (.inr (by simp only [visitStep_timers, h]))
  | callOff => exact .inr (.inr h)
  | sweep hopen => exact .inr (.inl rfl)
  | close hswept hopen hzero => exact .inr (.inr h)

/-- In a run, an armed timer stays armed until its visit starts or timers are stopped. -/
theorem armed_run {moves : List Move} (h : w.timers[n]? = some ⟨dir, true⟩)
    (hrun : w.run e moves = some w') :
    Starts e w dir moves ∨ .sweep ∈ moves ∨ w'.timers[n]? = some ⟨dir, true⟩ := by
  induction moves generalizing w with
  | nil =>
    cases hrun
    exact .inr (.inr h)
  | cons m moves ih =>
    obtain ⟨w₁, hstep, hrun⟩ := run_cons hrun
    rcases armed_step h hstep with rfl | rfl | h₁
    · exact .inl ⟨[], n, moves, w, rfl, rfl, h⟩
    · exact .inr (.inl List.mem_cons_self)
    · rcases ih h₁ hrun with hstarts | hsweep | hw'
      · exact .inl (hstarts.cons hstep)
      · exact .inr (.inl (List.mem_cons_of_mem _ hsweep))
      · exact .inr (.inr hw')

/-- In every run of a session, the session waits for the armed timers and the visits, which is never
a negative number. When it is over, no timer is armed and there is no visit, and nothing is reported
any more. While changes are noticed, a noticed change leaves a timer of its directory armed, and
this stays so until a visit of the directory starts or the session was called off and stops its
timers. -/
theorem schedulingLaw (e : Engine) (t : FileTree) (dirs : List Text) (moves : List Move) (w : Watch)
    (hrun : (idle t dirs).run e moves = some w) :
    w.awaited = w.timers.countP Timer.armed + w.visits.length ∧ 0 ≤ w.awaited ∧
    (w.isOver = true → (∀ timer ∈ w.timers, timer.armed = false) ∧ w.visits = [] ∧
      ∀ more w', w.run e more = some w' → w'.isOver = true ∧ w'.reports = w.reports) ∧
    ∀ event : FileEvent, w.swept = false → event.isSourceChange = true →
      ∃ (w' : Watch) (n : Nat), w.step e (.notice event) = some w' ∧
        w'.timers[n]? = some ⟨Path.dir event.name, true⟩ ∧
        ∀ more w'', w'.run e more = some w'' →
          Starts e w' (Path.dir event.name) more ∨ .sweep ∈ more ∨
            w''.timers[n]? = some ⟨Path.dir event.name, true⟩ := by
  have hbalanced : Balanced w := balanced_run (balanced_idle t dirs) hrun
  have hdone : w.OverIsDone := overIsDone_run (balanced_idle t dirs) nofun hrun
  have hcount := hbalanced.count
  refine ⟨hcount, by omega, fun hover => ?_, fun event hopen hchange => ?_⟩
  · obtain ⟨hidle, hvisits⟩ := hbalanced.nothing_left (hdone hover).2
    exact ⟨hidle, hvisits, fun more w' hmore => run_of_isOver hbalanced hdone hover hmore⟩
  · obtain ⟨n, harmed⟩ := exists_armed_arm hbalanced.known (Path.dir event.name)
    refine ⟨w.arm (Path.dir event.name), n, ?_, harmed, fun more w'' => armed_run harmed⟩
    simp [step, notice, hopen, hchange]

/-- A source file of the directory was written. -/
def changeIn (dir : Text) : Move := .notice ⟨dir ++ utf8 "/a.go", false, true⟩

/-- A timer is armed again after it went off, and its first visit takes it off the list of pending
timers. So the next change makes a second timer, which the second visit takes off the list. -/
def overtaken : List Move :=
  [changeIn "p", .fire 0, changeIn "p", .proceed 0, changeIn "p", .fire 0, .proceed 1]

/-- The session is called off and finds no pending timer, although one is armed. This one goes off,
and all three visits end before the session is over. -/
def overtakenToTheEnd : List Move :=
  overtaken ++ [.callOff, .sweep, .fire 1, .proceed 2] ++ List.replicate 6 (.proceed 0) ++ [.close]

/-- A timer that is on no list is waited for, too. -/
theorem schedulingLaw_overtaken :
    (∃ w, (idle (FileTree.empty "/w") ["p"]).run (Engine.new "/w" "." []) overtaken = some w ∧
      w.pending = [] ∧ w.awaited = 3 ∧ w.timers.countP Timer.armed = 1 ∧
      ∃ w', w.step (Engine.new "/w" "." []) (changeIn "p") = some w' ∧
        ∃ n : Nat, w'.timers[n]? = some ⟨"p", true⟩) ∧
    ∃ w,
      (idle (FileTree.empty "/w") ["p"]).run (Engine.new "/w" "." []) overtakenToTheEnd = some w ∧
      w.isOver = true ∧ w.visits = [] ∧ (∀ timer ∈ w.timers, timer.armed = false) ∧
      ∀ more w', w.run (Engine.new "/w" "." []) more = some w' → w'.reports = w.reports := by
  constructor
  · have hend : ((idle (FileTree.empty "/w") ["p"]).run (Engine.new "/w" "." []) overtaken).map
        (fun w => (w.pending, w.awaited, w.visits.length, w.swept)) = some ([], 3, 2, false) := by
      decide +kernel
    obtain ⟨w, hrun, hw⟩ := Option.map_eq_some_iff.mp hend
    simp only [Prod.mk.injEq] at hw
    obtain ⟨hpending, hawaited, hvisits, hopen⟩ := hw
    obtain ⟨hcount, -, -, hnotice⟩ := schedulingLaw _ _ _ _ w hrun
    obtain ⟨w', n, hstep, htimer, -⟩ := hnotice ⟨utf8 "p/a.go", false, true⟩ hopen (by decide)
    exact ⟨w, hrun, hpending, hawaited, by omega, w', hstep, n, htimer⟩
  · have hend : ((idle (FileTree.empty "/w") ["p"]).run (Engine.new "/w" "." [])
        overtakenToTheEnd).map (·.isOver) = some true := by
      decide +kernel
    obtain ⟨w, hrun, hover⟩ := Option.map_eq_some_iff.mp hend
    obtain ⟨hidle, hvisits, hafter⟩ := (schedulingLaw _ _ _ _ w hrun).2.2.1 hover
    exact ⟨w, hrun, hover, hvisits, hidle, fun more w' hmore => (hafter more w' hmore).2⟩

end Watch

end CaseCover
