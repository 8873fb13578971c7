import CaseCover.FileTree
import CaseCover.Severity
import CaseCover.Source.Position

/-!
# Issues

An issue is what a rule reports about a place in a file. Lists of issues are sorted by file, line,
column and rule, keeping the order of issues that agree in all four. Repeated issues are dropped:
an issue repeats another when rule, file, message, line and column are the same.
-/

namespace CaseCover

/-- A reported issue. -/
structure Issue where
  rule : Text
  category : Text
  filename : Text
  message : Text
  note : Text
  start : Place
  stop : Place
  severity : Severity
deriving DecidableEq

namespace Issue

/-- One issue comes before another: by file, then line, column and rule. -/
def before (a b : Issue) : Bool :=
  if a.filename ≠ b.filename then Text.less a.filename b.filename
  else if a.start.line ≠ b.start.line then a.start.line < b.start.line
  else if a.start.column ≠ b.start.column then a.start.column < b.start.column
  else Text.less a.rule b.rule

/-- Issues in their order; equal ones keep their relative order. -/
def sort (issues : List Issue) : List Issue := issues.mergeSort fun a b => !b.before a

/-- What two issues share when one repeats the other. -/
def key (i : Issue) : Text × Text × Text × Int × Int :=
  (i.rule, i.filename, i.message, i.start.line, i.start.column)

/-- The first issue of each key. `seen` holds the keys met so far. -/
def firstOfKeys (seen : List (Text × Text × Text × Int × Int)) : List Issue → List Issue
  | [] => []
  | i :: rest =>
    if seen.contains i.key then firstOfKeys seen rest
    else i :: firstOfKeys (i.key :: seen) rest

/-- Drops repeated issues and sorts the rest. -/
def distinct (issues : List Issue) : List Issue := sort (firstOfKeys [] issues)

/-- The issues located in a file, which may go by its name or by the one without links. -/
def inFile (t : FileTree) (name : Text) (issues : List Issue) : List Issue :=
  let names := name :: (t.resolve name).toList
  issues.filter fun i => names.contains (Path.clean i.filename)

/-- The names of the files with issues, in order. -/
def fileNames (issues : List Issue) : List Text :=
  Text.sort ((issues.map (·.filename)).eraseDups)

/-- The issues of each file, the files in the order of their names. -/
def byFile (issues : List Issue) : List (Text × List Issue) :=
  (fileNames issues).map fun name => (name, issues.filter fun i => i.filename == name)

end Issue

end CaseCover
