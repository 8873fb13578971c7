import CaseCover.Batch.Pool
import CaseCover.FileTree.Walk
import CaseCover.Log

/-!
# Working through paths

Paths are linted one after the other. A source file is linted by itself; below a directory a pool
of workers lints every package directory. If the work on a directory was called off, the issues of
the packages that were linted come with that fault; if a package failed, there are none. The first
path that fails ends everything.
-/

namespace CaseCover

/-- Why work on paths ended early. -/
inductive BatchError where
  | access (path : Text) (cause : PathError)
  | walk (cause : FileTree.WalkError)
  | failed (message : Text)
  | stopped (message : Text)
deriving DecidableEq

/-- The message of the fault. -/
def BatchError.message : BatchError → Text
  | .access path e => utf8 "error accessing " ++ path ++ utf8 ": " ++ e.message
  | .walk e => e.message
  | .failed m => m
  | .stopped m => m

namespace Batch

/-- Why work that was called off stops. -/
def cancelled : Text := "context canceled"

/-- Why work whose time is over stops. -/
def timedOut : Text := "context deadline exceeded"

/-- What came of the work: issues, the fault that ended it, and log entries. -/
structure Report where
  issues : List Issue
  error : Option BatchError
  logs : List Log

/-- Nothing but a fault came of the work. -/
def Report.fault (e : BatchError) : Report := ⟨[], some e, []⟩

variable {σ : Type}

/-- What a finished pool amounts to: a stop counts before a failure and leaves the issues, a failure
leaves none. -/
def ofPool (p : Pool σ) : Report :=
  let logs := p.failedDirs.map fun dir => ⟨.error, "Error processing package", .dir dir⟩
  match p.stop, p.failure with
  | some m, _ => ⟨p.issues, some (.stopped m), logs⟩
  | none, some m => ⟨[], some (.failed m), logs⟩
  | none, none => ⟨p.issues, none, logs⟩

/-- Lints directories by a pool of workers. -/
def directories (l : Linter σ) (dirs : List Text) (s : σ) : Report × σ :=
  let p := (Pool.start l (max dirs.length 1) dirs s).finish l
  (ofPool p, p.state)

/-- Lints one path. -/
def path (l : Linter σ) (t : FileTree) (p : Text) (s : σ) : Report × σ :=
  match t.stat p with
  | .error e => (.fault (.access p e), s)
  | .ok n =>
    if n.isDir then
      match t.sourceDirs p with
      | .error e => (.fault (.walk e), s)
      | .ok dirs => directories l dirs s
    else if FileTree.isSourceName p then
      match l.run p s with
      | (.ok issues, s) => (⟨issues, none, []⟩, s)
      | (.error m, s) => (.fault (.failed m), s)
    else (⟨[], none, []⟩, s)

/-- Lints paths in order. After a fault no issues are left. -/
def paths (l : Linter σ) (t : FileTree) : List Text → σ → Report × σ
  | [], s => (⟨[], none, []⟩, s)
  | p :: rest, s =>
    let (here, s) := path l t p s
    match here.error with
    | some e => (⟨[], some e, here.logs ++ [⟨.error, "Error processing path", .path p⟩]⟩, s)
    | none =>
      let (r, s) := paths l t rest s
      let issues := if r.error.isSome then [] else here.issues ++ r.issues
      (⟨issues, r.error, here.logs ++ r.logs⟩, s)

/-- Lints sources in order. A stop keeps the issues found before it, a failure does not. -/
def sourcesFrom (l : Linter σ) : Nat → List Issue → List Text → σ → Report × σ
  | _, found, [], s => (⟨found, none, []⟩, s)
  | n, found, source :: rest, s =>
    match l.stopped s with
    | some m => (⟨found, some (.stopped m), []⟩, s)
    | none =>
      match l.run source s with
      | (.error m, s) => (⟨[], some (.failed m), [⟨.error, "Error processing source", .source n⟩]⟩, s)
      | (.ok is, s) => sourcesFrom l (n + 1) (found ++ is) rest s

/-- Lints sources in order. -/
def sources (l : Linter σ) (ss : List Text) (s : σ) : Report × σ := sourcesFrom l 0 [] ss s

end Batch

end CaseCover
