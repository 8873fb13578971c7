import CaseCover.Cache
import CaseCover.Engine.Run

/-!
# Sessions of watching

A change of a source file arms the timer of its directory, and further changes put the timer off.
A timer that goes off starts a visit: the visit leaves the list of pending timers, looks whether the
session was called off, asks the cache whether the files are what they were, lints the directory,
remembers the issues and reports them. Visits may overlap, also those of one directory, and files
may be written between any two steps of a visit.

The session counts the timers that are armed and the visits that have not ended. When it was called
off it stops the pending timers that are still armed, and it is over once nothing is counted any
more.
-/

namespace CaseCover

/-- What happened to a file. -/
structure FileEvent where
  name : Text
  created : Bool
  written : Bool
deriving DecidableEq

/-- A source file has new content. -/
def FileEvent.isSourceChange (e : FileEvent) : Bool :=
  (e.created || e.written) && Text.endsWith e.name FileTree.sourceExt

/-- The issues of a directory that was linted again. -/
structure WatchReport where
  dir : Text
  issues : List Issue
deriving DecidableEq

/-- A timer of a directory. It may be armed again after it went off. -/
structure Timer where
  dir : Text
  armed : Bool
deriving DecidableEq

/-- What a visit does next. -/
inductive Stage where
  /-- Its timer stops being pending. -/
  | enter
  /-- It looks whether the session was called off. -/
  | look
  /-- It asks the cache. -/
  | compare
  /-- It lints the directory. -/
  | lint
  /-- It forgets the directory, which could not be linted. -/
  | forget
  /-- It remembers issues. -/
  | remember (issues : List Issue)
  /-- It reports issues. -/
  | report (issues : List Issue)
  /-- It ends. -/
  | leave
deriving DecidableEq

/-- The visit of a directory after its timer went off. -/
structure Visit where
  dir : Text
  stage : Stage
deriving DecidableEq

/-- A session of watching. -/
structure Watch where
  /-- The directories that are watched. -/
  dirs : List Text
  /-- The files as they are now. -/
  tree : FileTree
  cache : Cache
  /-- All timers there have been. -/
  timers : List Timer
  /-- The timers of directories with a change, by their places in `timers`. -/
  pending : List (Text × Nat)
  /-- Visits that have not ended. -/
  visits : List Visit
  /-- How much the session has to wait for before it is over. -/
  awaited : Int
  reports : List WatchReport
  calledOff : Bool
  /-- No more changes are noticed. -/
  swept : Bool
  isOver : Bool

namespace Watch

/-- One turn of the session, of a timer, of a visit, or of the outside world. -/
inductive Move where
  | write (path content : Text)
  | notice (event : FileEvent)
  | fire (timer : Nat)
  | proceed (visit : Nat)
  | callOff
  | sweep
  | close

/-- Arms the timer of a directory. A pending timer that is armed is put off; one that went off is
armed again; and without a pending timer there is a new one. -/
def arm (w : Watch) (dir : Text) : Watch :=
  match w.pending.lookup dir with
  | some n =>
    match w.timers[n]? with
    | some timer =>
      if timer.armed then w
      else { w with
        timers := w.timers.set n { timer with armed := true }
        awaited := w.awaited + 1 }
    | none => w
  | none =>
    { w with
      timers := w.timers ++ [⟨dir, true⟩]
      pending := (dir, w.timers.length) :: w.pending
      awaited := w.awaited + 1 }

/-- Notices an event. -/
def notice (w : Watch) (event : FileEvent) : Watch :=
  if event.isSourceChange then w.arm (Path.dir event.name) else w

/-- A timer goes off. -/
def fire (w : Watch) (n : Nat) : Option Watch :=
  match w.timers[n]? with
  | some ⟨dir, true⟩ =>
    some { w with timers := w.timers.set n ⟨dir, false⟩, visits := w.visits ++ [⟨dir, .enter⟩] }
  | _ => none

/-- What a visit does next after it asked the cache. -/
def compared (w : Watch) (dir : Text) : Stage :=
  if (w.cache.get? w.tree dir).isSome then .leave else .lint

/-- What a visit does next after it linted. -/
def linted (e : Engine) (w : Watch) (dir : Text) : Stage :=
  match (e.lint w.tree dir).1 with
  | .ok issues => .remember issues
  | .error _ => .forget

/-- Remembers issues. What cannot be remembered leaves the cache as it is. -/
def remember (w : Watch) (dir : Text) (issues : List Issue) : Cache :=
  match w.cache.insert w.tree dir issues with
  | .ok cache => cache
  | .error _ => w.cache

/-- The session and the visit after one step of the visit. A visit that has ended is gone. -/
def visitStep (e : Engine) (w : Watch) (dir : Text) : Stage → Watch × Option Stage
  | .enter => ({ w with pending := w.pending.filter fun p => p.1 != dir }, some .look)
  | .look => (w, some (if w.calledOff then .leave else .compare))
  | .compare => (w, some (w.compared dir))
  | .lint => (w, some (w.linted e dir))
  | .forget => ({ w with cache := w.cache.erase dir }, some .leave)
  | .remember issues => ({ w with cache := w.remember dir issues }, some (.report issues))
  | .report issues => ({ w with reports := w.reports ++ [⟨dir, issues⟩] }, some .leave)
  | .leave => ({ w with awaited := w.awaited - 1 }, none)

/-- A visit makes its next step. -/
def proceed (e : Engine) (w : Watch) (i : Nat) : Option Watch :=
  match w.visits[i]? with
  | none => none
  | some ⟨dir, stage⟩ =>
    let (w, next) := w.visitStep e dir stage
    some { w with
      visits := match next with
        | some stage => w.visits.set i ⟨dir, stage⟩
        | none => w.visits.eraseIdx i }

/-- Stops a timer that is armed. -/
def stopTimer (w : Watch) (n : Nat) : Watch :=
  match w.timers[n]? with
  | some ⟨dir, true⟩ =>
    { w with timers := w.timers.set n ⟨dir, false⟩, awaited := w.awaited - 1 }
  | _ => w

/-- Stops the pending timers. -/
def sweep (w : Watch) : Watch :=
  let stopped := w.pending.foldl (fun w p => w.stopTimer p.2) w
  { stopped with pending := [], swept := true }

/-- The session after a move, if the move is possible. Events are noticed until the pending timers
were stopped, which happens once the session was called off. -/
def step (e : Engine) (w : Watch) : Move → Option Watch
  | .write path content => some { w with tree := w.tree.put path (.file content) }
  | .notice event => if w.swept then none else some (w.notice event)
  | .fire n => w.fire n
  | .proceed i => w.proceed e i
  | .callOff => some { w with calledOff := true }
  | .sweep => if w.calledOff && !w.swept then some w.sweep else none
  | .close => if w.swept && !w.isOver && w.awaited == 0 then some { w with isOver := true } else none

/-- The session after moves, if all of them are possible. -/
def run (e : Engine) (w : Watch) (moves : List Move) : Option Watch := moves.foldlM (step e) w

end Watch

end CaseCover
