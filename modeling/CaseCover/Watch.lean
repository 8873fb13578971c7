import CaseCover.Watch.Session

/-!
# Watching directories

Directories are watched for source files that are created or written. The package directory of such
a file is linted again, unless its files are what they were when it was last linted. Only
directories that exist when watching starts are watched. Here everything settles after each write:
every armed timer goes off, and its visit ends before the next one starts.
-/

namespace CaseCover

/-- A directory cannot be watched. -/
structure WatchError where
  cause : PathError
deriving DecidableEq

/-- The message of the fault. -/
def WatchError.message (e : WatchError) : Text :=
  utf8 "error adding directory to watcher: " ++ e.cause.message

namespace Watch

/-- A session in which nothing has happened. -/
def idle (t : FileTree) (dirs : List Text) : Watch :=
  { dirs, tree := t, cache := Cache.empty, timers := [], pending := [], visits := [], awaited := 0,
    reports := [], calledOff := false, swept := false, isOver := false }

/-- Watches the directories below some roots. -/
def start (t : FileTree) (roots : List Text) : Except WatchError Watch :=
  match roots.mapM t.directories with
  | .ok dirs => .ok (idle t (dirs.flatten.map Path.clean).eraseDups)
  | .error e => .error ⟨e⟩

/-- The event of a written file, if its directory is watched. -/
def eventOf? (w : Watch) (path : Text) : Option FileEvent :=
  let parent := Path.dir (Path.absolute w.tree.cwd path)
  (w.dirs.find? fun d => Path.absolute w.tree.cwd d == parent).map fun d =>
    ⟨d ++ [Path.separator] ++ Path.base path, false, true⟩

/-- Makes the moves that are possible. -/
def advance (e : Engine) (w : Watch) (moves : List Move) : Watch :=
  moves.foldl (fun w m => (w.step e m).getD w) w

/-- A timer goes off, and its visit ends: it has at most seven steps. -/
def visit (n : Nat) : List Move := .fire n :: List.replicate 7 (.proceed 0)

/-- Lets every timer go off. -/
def fireAll (e : Engine) (w : Watch) : Watch :=
  w.advance e ((List.range w.timers.length).flatMap visit)

/-- Writes files, notices that and settles. Gives the new reports. -/
def write (e : Engine) (w : Watch) (files : List (Text × Text)) : List WatchReport × Watch :=
  let written := w.advance e (files.map fun f => .write f.1 f.2)
  let noticed := written.advance e ((files.filterMap fun f => w.eventOf? f.1).map .notice)
  let after := noticed.fireAll e
  (after.reports.drop w.reports.length, after)

end Watch

end CaseCover
