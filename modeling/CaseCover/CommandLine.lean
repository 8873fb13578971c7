import CaseCover.CommandLine.Completion
import CaseCover.Config.Load
import CaseCover.Engine.Run
import CaseCover.Report.Print

/-!
# The command line

Arguments call a command, which works on a file tree: it may write files, prints text, and ends
with an exit code. The words before the name of a command are flags for all commands; without the
name of a command the paths are linted.
-/

namespace CaseCover

/-- What a command leaves behind: the printed text, the exit code, the files, and log entries. -/
structure Outcome where
  stdout : Text
  exit : Nat
  tree : FileTree
  logs : List Log

namespace CommandLine

/-! ## Commands at work -/

/-- Nothing but an exit code. -/
def silent (t : FileTree) (exit : Nat) : Outcome := ⟨[], exit, t, []⟩

/-- Prints a text. -/
def say (t : FileTree) (text : Text) : Outcome := ⟨text, 0, t, []⟩

/-- The shortest time in which any work is handed out, in nanoseconds. -/
def leastTime : Int := 1000

/-- Why a run with a timeout stops before it starts, if it does. -/
def stopReason (timeout : Int) : Option Text :=
  if timeout < leastTime then some Batch.timedOut else none

/-- The engine that configuration and settings ask for. -/
def engineOf (t : FileTree) (s : Settings) (c : Config) : Engine :=
  let e := c.engine t.cwd "."
  let e := if s.tests then e.withTests true else e
  let e := (Text.listItems s.ignore).foldl Engine.withoutRule e
  (Text.listItems s.ignorePaths).foldl Engine.withoutPath e

/-- The exit code of a run that breaks off. -/
def brokenOff : Nat := 2

/-- The exit code of a run whose configuration has a fault. Keys that cannot be told apart break the
run off. -/
def faultExit : ConfigLoadFault → Nat
  | .content .collectionKey => brokenOff
  | _ => 1

/-- Lints paths. The exit code tells that there are issues or that something failed. -/
def lint (t : FileTree) (s : Settings) (paths : List Text) : Outcome :=
  if paths.isEmpty then ⟨"error: Please provide file or directory paths\n", 1, t, []⟩
  else
    match Config.load t s.config with
    | .error f => silent t (faultExit f)
    | .ok c =>
      let linter := (engineOf t s c).linter t (stopReason s.timeout)
      let (report, logs) := Batch.paths linter t paths []
      let logs := logs ++ report.logs
      if report.error.isSome then ⟨[], 1, t, logs⟩
      else
        let p := Report.print t (.ofOptions s.json s.output) report.issues
        let failed := p.error.isSome || !report.issues.isEmpty
        ⟨p.stdout, if failed then 1 else 0, p.tree, logs ++ p.logs⟩

/-- Writes a configuration file. -/
def init (t : FileTree) (s : Settings) : Outcome :=
  let path := Config.pathOf s.config
  match Config.writeDefault t path with
  | .error _ => silent t 0
  | .ok t => say t (utf8 "Configuration file created/updated: " ++ path ++ utf8 "\n")

/-- Carries out a command. -/
def perform (t : FileTree) (c : Command) (s : Settings) (operands : List Text) : Outcome :=
  if s.help || !c.isRunnable then say t c.helpText
  else
    match c with
    | .root => if operands.isEmpty then say t c.helpText else lint t s operands
    | .lint => lint t s operands
    | .init => init t s
    | .help =>
      match topic? false .root operands with
      | some d => say t d.helpText
      | none => silent t 0
    | _ => silent t (if operands.isEmpty then 0 else 1)

/-- Runs the program with arguments. -/
def run (t : FileTree) (args : List Text) : Outcome :=
  match Call.ofArguments args with
  | .error _ => silent t 1
  | .ok ⟨.suggest described, s, words⟩ =>
    match words.getLast? with
    | none => silent t 1
    | some last => say t (suggest described s words.dropLast last).text
  | .ok ⟨c, s, rest⟩ =>
    match s.read c.flags rest with
    | .error _ => silent t 1
    | .ok (s, operands) => perform t c s operands

end CommandLine

end CaseCover
