import CaseCover.Issue

/-!
# A pool of workers

The directories of a batch are handed to workers one after the other. The dispatcher looks whether
the work was called off, then offers the next directory until a worker is free; it gives up the
offer if the work is called off meanwhile. A worker lints its directory, delivers the result and is
free again. When nothing more is handed out and no worker is busy, the results are counted together
in the order in which they were delivered.

Dispatcher, workers and the outside world may take turns in any way: a schedule is a list of moves,
and `Pool.run` follows it. `Pool.finish` is one schedule, in which every directory is handed over,
linted and delivered before the next one is offered.
-/

namespace CaseCover

/-- Something that lints, with a state of its own. `stopped` tells why the work is called off. -/
structure Linter (σ : Type) where
  run : Text → σ → Except Text (List Issue) × σ
  stopped : σ → Option Text

/-- The result of linting one directory. -/
structure DirResult where
  dir : Text
  outcome : Except Text (List Issue)

/-- What the dispatcher is about to do. -/
inductive Dispatch where
  /-- To look whether the work was called off. -/
  | looking
  /-- To hand over the next directory. -/
  | offering
  /-- Nothing more. A reason is there if it saw the work called off with directories left. -/
  | closed (stop : Option Text)
deriving DecidableEq

/-- A worker that has a directory. -/
inductive Worker where
  | linting (dir : Text)
  | done (result : DirResult)

/-- The directory that a worker has. -/
def Worker.dir : Worker → Text
  | .linting dir => dir
  | .done result => result.dir

/-- Workers and what is left for them. -/
structure Pool (σ : Type) where
  /-- How many directories can be worked on at a time. -/
  workers : Nat
  /-- How many results can be kept. -/
  room : Nat
  /-- Directories that were not handed over yet. -/
  waiting : List Text
  dispatch : Dispatch
  /-- The busy workers. -/
  busy : List Worker
  /-- Results in the order of their delivery. -/
  results : List DirResult
  /-- Why the work was called off. -/
  calledOff : Option Text
  /-- The state of the linter. -/
  state : σ

namespace Pool

variable {σ : Type}

/-- One turn of the dispatcher, of a busy worker, or of the outside world. -/
inductive Move where
  | look
  | handOver
  | giveUp
  | lint (worker : Nat)
  | deliver (worker : Nat)
  | callOff (reason : Text)
deriving DecidableEq

/-- A pool that has not begun. It has room for the results of all directories. -/
def start (l : Linter σ) (workers : Nat) (dirs : List Text) (s : σ) : Pool σ :=
  { workers, room := dirs.length, waiting := dirs, dispatch := .looking, busy := [], results := [],
    calledOff := l.stopped s, state := s }

/-- Looks whether a next directory may be offered. -/
def look (p : Pool σ) : Option (Pool σ) :=
  match p.dispatch, p.waiting, p.calledOff with
  | .looking, [], _ => some { p with dispatch := .closed none }
  | .looking, _ :: _, some reason => some { p with dispatch := .closed (some reason) }
  | .looking, _ :: _, none => some { p with dispatch := .offering }
  | _, _, _ => none

/-- Hands the next directory to a free worker. -/
def handOver (p : Pool σ) : Option (Pool σ) :=
  match p.dispatch, p.waiting with
  | .offering, dir :: rest =>
    if p.busy.length < p.workers then
      some { p with dispatch := .looking, waiting := rest, busy := p.busy ++ [.linting dir] }
    else none
  | _, _ => none

/-- Takes an offer back because the work was called off. -/
def giveUp (p : Pool σ) : Option (Pool σ) :=
  match p.dispatch, p.calledOff with
  | .offering, some reason => some { p with dispatch := .closed (some reason) }
  | _, _ => none

/-- A busy worker lints its directory. -/
def lint (l : Linter σ) (p : Pool σ) (worker : Nat) : Option (Pool σ) :=
  match p.busy[worker]? with
  | some (.linting dir) =>
    let (outcome, state) := l.run dir p.state
    some { p with
      busy := p.busy.set worker (.done ⟨dir, outcome⟩)
      calledOff := p.calledOff <|> l.stopped state
      state := state }
  | _ => none

/-- A busy worker delivers its result and is free. -/
def deliver (p : Pool σ) (worker : Nat) : Option (Pool σ) :=
  match p.busy[worker]? with
  | some (.done result) =>
    if p.results.length < p.room then
      some { p with busy := p.busy.eraseIdx worker, results := p.results ++ [result] }
    else none
  | _ => none

/-- The pool after a move, if the move is possible. -/
def step (l : Linter σ) (p : Pool σ) : Move → Option (Pool σ)
  | .look => p.look
  | .handOver => p.handOver
  | .giveUp => p.giveUp
  | .lint worker => p.lint l worker
  | .deliver worker => p.deliver worker
  | .callOff reason => if p.calledOff.isNone then some { p with calledOff := some reason } else none

/-- The pool after a schedule, if all its moves are possible. -/
def run (l : Linter σ) (p : Pool σ) (schedule : List Move) : Option (Pool σ) :=
  schedule.foldlM (step l) p

/-- Nothing more is handed over, and no worker is busy. -/
def isFinished (p : Pool σ) : Bool :=
  match p.dispatch with
  | .closed _ => p.busy.isEmpty
  | _ => false

/-- Why directories were left over. -/
def stop (p : Pool σ) : Option Text :=
  match p.dispatch with
  | .closed reason => reason
  | _ => none

/-- The issues of the directories that did not fail. -/
def issues (p : Pool σ) : List Issue :=
  p.results.flatMap fun r => match r.outcome with | .ok is => is | .error _ => []

/-- The failure that was delivered first. -/
def failure (p : Pool σ) : Option Text :=
  p.results.findSome? fun r => match r.outcome with | .ok _ => none | .error m => some m

/-- The directories that failed. -/
def failedDirs (p : Pool σ) : List Text :=
  p.results.filterMap fun r => match r.outcome with | .ok _ => none | .error _ => some r.dir

/-- Makes a move if it is possible. -/
def advance (l : Linter σ) (p : Pool σ) (m : Move) : Pool σ := (p.step l m).getD p

/-- All that happens to one directory, with no other worker busy. -/
def turn : List Move := [.look, .handOver, .lint 0, .deliver 0]

/-- Works through the directories one by one. -/
def finish (l : Linter σ) (p : Pool σ) : Pool σ :=
  ((List.replicate p.waiting.length turn).flatten ++ [Move.look]).foldl (advance l) p

end Pool

end CaseCover
