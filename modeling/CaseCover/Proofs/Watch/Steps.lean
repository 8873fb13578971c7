import CaseCover.Watch

/-!
# Steps of a session

What a move makes of a session, and when it is possible, is told once for all moves
(`taken_of_step`), and whatever every step keeps holds in every run (`run_induct`). Arming a timer and
stopping the pending ones leave all but the timers and the count as it is (`exists_arm_eq`,
`exists_sweep_eq`).
-/

namespace CaseCover

namespace Watch

variable {e : Engine} {w w' : Watch} {m : Move} {dir : Text} {n : Nat}

/-! ## Lists of visits -/

/-- A list after the element at a place became another one, or went. -/
def replaced {α : Type} (l : List α) (i : Nat) : Option α → List α
  | some a => l.set i a
  | none => l.eraseIdx i

theorem map_replaced {α β : Type} (f : α → β) (l : List α) (i : Nat) (a : Option α) :
    (replaced l i a).map f = replaced (l.map f) i (a.map f) := by
  cases a with
  | none =>
    simp only [replaced, Option.map_none, List.eraseIdx_eq_take_drop_succ, List.map_append,
      List.map_take, List.map_drop]
  | some a => exact List.map_set

theorem mem_replaced {α : Type} {l : List α} {i : Nat} {a : Option α} {b : α}
    (h : b ∈ replaced l i a) : b ∈ l ∨ a = some b := by
  cases a with
  | none => exact .inl (List.mem_of_mem_eraseIdx h)
  | some a =>
    rcases List.mem_or_eq_of_mem_set h with h | rfl
    · exact .inl h
    · exact .inr rfl

theorem mem_replaced_of_ne {α : Type} {l : List α} {i : Nat} {b c : α} (hb : b ∈ l)
    (hc : l[i]? = some c) (hne : b ≠ c) (a : Option α) : b ∈ replaced l i a := by
  obtain ⟨j, hj⟩ := List.mem_iff_getElem?.mp hb
  have hij : j ≠ i := by
    rintro rfl
    rw [hj] at hc
    exact hne (Option.some.inj hc)
  cases a with
  | none => exact List.mem_eraseIdx_iff_getElem?.mpr ⟨j, hij, hj⟩
  | some a =>
    have hset : (l.set i a)[j]? = some b := by rw [List.getElem?_set_ne hij.symm, hj]
    exact List.mem_of_getElem? hset

theorem mem_replaced_self {α : Type} {l : List α} {i : Nat} {c : α} (hc : l[i]? = some c) (a : α) :
    a ∈ replaced l i (some a) := by
  obtain ⟨hlt, -⟩ := List.getElem?_eq_some_iff.mp hc
  exact List.mem_set hlt a

/-- A visit that goes on keeps their number, one that ends lowers it by one. -/
theorem length_replaced {α : Type} {l : List α} {i : Nat} {b : α} (h : l[i]? = some b)
    (a : Option α) : (replaced l i a).length + 1 = l.length + a.toList.length := by
  obtain ⟨hlt, -⟩ := List.getElem?_eq_some_iff.mp h
  cases a with
  | none =>
    simp only [replaced, List.length_eraseIdx_of_lt hlt, Option.toList_none, List.length_nil]
    omega
  | some a => simp [replaced]

/-! ## Steps -/

/-- A step of a visit changes no files. -/
theorem visitStep_tree (e : Engine) (w : Watch) (dir : Text) (stage : Stage) :
    (w.visitStep e dir stage).1.tree = w.tree := by
  cases stage <;> rfl

/-- It arms and stops no timers either. -/
theorem visitStep_timers (e : Engine) (w : Watch) (dir : Text) (stage : Stage) :
    (w.visitStep e dir stage).1.timers = w.timers := by
  cases stage <;> rfl

/-- What a move makes of a session, and when it is possible. -/
inductive Taken (e : Engine) (w : Watch) : Move → Watch → Prop
  | write (path content : Text) :
    Taken e w (.write path content) { w with tree := w.tree.put path (.file content) }
  | arm (event : FileEvent) (hopen : w.swept = false) :
    Taken e w (.notice event) (w.arm (Path.dir event.name))
  | overlook (event : FileEvent) (hopen : w.swept = false) : Taken e w (.notice event) w
  | fire {n : Nat} {dir : Text} (htimer : w.timers[n]? = some ⟨dir, true⟩) :
    Taken e w (.fire n)
      { w with timers := w.timers.set n ⟨dir, false⟩, visits := w.visits ++ [⟨dir, .enter⟩] }
  | proceed {i : Nat} {dir : Text} {stage : Stage} (hvisit : w.visits[i]? = some ⟨dir, stage⟩) :
    Taken e w (.proceed i)
      { (w.visitStep e dir stage).1 with
        visits := replaced w.visits i
          ((w.visitStep e dir stage).2.map fun next => ⟨dir, next⟩) }
  | callOff : Taken e w .callOff { w with calledOff := true }
  | sweep (hopen : w.swept = false) : Taken e w .sweep w.sweep
  | close (hswept : w.swept = true) (hopen : w.isOver = false) (hzero : w.awaited = 0) :
    Taken e w .close { w with isOver := true }

/-- All that a move can do, one case for each kind of move and outcome. -/
theorem taken_of_step (h : w.step e m = some w') : Taken e w m w' := by
  cases m with
  | write path content =>
    cases h
    exact .write path content
  | notice event =>
    rw [step] at h
    split at h
    · cases h
    · next hopen =>
      cases h
      have hopen := Bool.eq_false_iff.mpr hopen
      unfold notice
      split
      · exact .arm event hopen
      · exact .overlook event hopen
  | fire n =>
    rw [step, fire] at h
    split at h
    · next dir htimer =>
      cases h
      exact .fire htimer
    · cases h
  | proceed i =>
    rw [step, proceed] at h
    split at h
    · cases h
    · next dir stage hvisit =>
      cases h
      -- A step of a visit leaves the list of visits alone, so it is the one of the session before.
      have htaken := Taken.proceed (e := e) hvisit
      cases stage <;> exact htaken
  | callOff =>
    cases h
    exact .callOff
  | sweep =>
    rw [step] at h
    split at h
    · next hsweep =>
      cases h
      simp only [Bool.and_eq_true, Bool.not_eq_true'] at hsweep
      exact .sweep hsweep.2
    · cases h
  | close =>
    rw [step] at h
    split at h
    · next hclose =>
      cases h
      simp only [Bool.and_eq_true, Bool.not_eq_true', beq_iff_eq] at hclose
      exact .close hclose.1.1 hclose.1.2 hclose.2
    · cases h

/-! ## Runs -/

theorem run_cons {moves : List Move} (h : w.run e (m :: moves) = some w') :
    ∃ w₁, w.step e m = some w₁ ∧ w₁.run e moves = some w' := by
  rw [run, List.foldlM_cons] at h
  exact Option.bind_eq_some_iff.mp h

/-- A run with one more move. -/
theorem run_append (e : Engine) (w : Watch) (moves : List Move) (m : Move) :
    w.run e (moves ++ [m]) = (w.run e moves).bind fun w => w.step e m := by
  rw [run, List.foldlM_append, run]
  simp [List.foldlM_cons, List.foldlM_nil]

/-- What every step keeps, every run keeps. -/
theorem run_induct {P : Watch → Prop} {moves : List Move}
    (hstep : ∀ w m w', P w → w.step e m = some w' → P w') (h : P w)
    (hrun : w.run e moves = some w') : P w' := by
  induction moves generalizing w with
  | nil =>
    cases hrun
    exact h
  | cons m moves ih =>
    obtain ⟨w₁, hw₁, hrun⟩ := run_cons hrun
    exact ih (hstep w m w₁ h hw₁) hrun

/-! ## Timers -/

/-- Arming a timer leaves all but the timers and the count as it is. -/
theorem exists_arm_eq (w : Watch) (dir : Text) :
    ∃ timers pending awaited, w.arm dir = { w with timers, pending, awaited } := by
  unfold arm
  split
  · split
    · split
      · exact ⟨_, _, _, rfl⟩
      · exact ⟨_, _, _, rfl⟩
    · exact ⟨_, _, _, rfl⟩
  · exact ⟨_, _, _, rfl⟩

/-- Stopping a timer changes timers and what is awaited, nothing else. -/
theorem exists_stopTimer_eq (w : Watch) (n : Nat) :
    ∃ timers awaited, w.stopTimer n = { w with timers, awaited } := by
  unfold stopTimer
  split
  · exact ⟨_, _, rfl⟩
  · exact ⟨_, _, rfl⟩

/-- What stopping one timer keeps, stopping the pending ones keeps. -/
theorem foldl_stopTimer_induct {P : Watch → Prop}
    (hstop : ∀ w n, P w → P (w.stopTimer n)) (pending : List (Text × Nat)) (h : P w) :
    P (pending.foldl (fun w p => w.stopTimer p.2) w) := by
  induction pending generalizing w with
  | nil => exact h
  | cons p pending ih => exact ih (hstop w p.2 h)

/-- Stopping the pending timers leaves all but the timers and the count as it is, and no change is
noticed any more. -/
theorem exists_sweep_eq (w : Watch) :
    ∃ timers awaited, w.sweep = { w with timers, awaited, pending := [], swept := true } := by
  have hstopped : ∃ timers awaited,
      w.pending.foldl (fun w p => w.stopTimer p.2) w = { w with timers, awaited } := by
    refine foldl_stopTimer_induct (P := fun w' => ∃ timers awaited, w' = { w with timers, awaited })
      ?_ w.pending ⟨w.timers, w.awaited, rfl⟩
    rintro _ n ⟨timers, awaited, rfl⟩
    exact exists_stopTimer_eq { w with timers, awaited } n
  obtain ⟨timers, awaited, hstopped⟩ := hstopped
  exact ⟨timers, awaited, by rw [sweep, hstopped]⟩

end Watch

end CaseCover
