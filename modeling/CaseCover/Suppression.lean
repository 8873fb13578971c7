import CaseCover.Source.Position
import CaseCover.Source.Statements
import CaseCover.Text.Space

/-!
# Suppression comments

A comment `//nolint`, or `//nolint:rule,rule`, suppresses issues of all rules or of the rules it
names, on a range of lines. Before the package clause it covers the whole file. Behind a statement
it covers that statement. On a line of its own it covers the statement, or else the function, that
starts on the next line, and otherwise nothing but its own line.

Where things stand is asked of a function `place` from positions to places, so the same rules can
be read with reported and with physical places.
-/

namespace CaseCover

/-- Lines of a file on which the listed rules, or all rules when the list is empty, are
suppressed. -/
structure SuppressedRange where
  rules : List Text
  start : Int
  stop : Int
deriving DecidableEq

/-- The suppressed ranges with the file each belongs to, in the order of their comments. -/
structure Suppression where
  ranges : List (Text × SuppressedRange)

namespace Suppression

/-- The word that starts a suppression comment. -/
def marker : Text := "//nolint"

/-- Sorted without repetitions. -/
def ruleSet (names : List Text) : List Text := (Text.sort names).eraseDups

/-- The rules a comment suppresses, empty for all of them; none when it is no suppression comment.
A colon must be followed by some text. -/
def rulesOf? (comment : Text) : Option (List Text) :=
  match Text.stripLead? marker comment with
  | none => none
  | some [] => some []
  | some (b :: rest) =>
    if b ≠ 0x3A then none
    else if (Text.trim rest).isEmpty then none
    else some (ruleSet (Text.listItems (Text.trim rest)))

/-- The first statement that starts on a line. -/
def stmtOnLine? (place : Pos → Place) (stmts : List Stmt) (line : Int) : Option Stmt :=
  stmts.find? fun s => (place s.pos).line == line

/-- The function declaration that starts on a line. -/
def funcOnLine? (place : Pos → Place) (decls : List Decl) (line : Int) : Option FuncDecl :=
  decls.findSome? fun d =>
    match d with
    | .func f => if (place f.pos).line == line then some f else none
    | _ => none

/-- The lines a comment of a file covers. -/
def extent (place : Pos → Place) (f : SourceFile) (stmts : List Stmt) (c : Comment) : Int × Int :=
  let line := (place c.pos).line
  if line < (place f.package).line then (1, (place f.stop).line)
  else
    let trailing := (stmtOnLine? place stmts line).filter fun s => s.pos < c.pos
    match trailing.or (stmtOnLine? place stmts (line + 1)) with
    | some s => (line, (place s.stop).line)
    | none =>
      match funcOnLine? place f.decls (line + 1) with
      | some fn => (line, (place fn.stop).line)
      | none => (line, line)

/-- The suppressed ranges of a file. -/
def ofFile (place : Pos → Place) (f : SourceFile) : List (Text × SuppressedRange) :=
  let name := (place f.package).filename
  let stmts := f.statements
  f.comments.filterMap fun c =>
    (rulesOf? c.text).map fun rules =>
      let (start, stop) := extent place f stmts c
      (name, ⟨rules, start, stop⟩)

/-- The suppressed ranges of files. -/
def ofFiles (place : Pos → Place) (files : List SourceFile) : Suppression :=
  ⟨files.flatMap (ofFile place)⟩

/-- The suppressed ranges of one file. -/
def rangesIn (s : Suppression) (filename : Text) : List SuppressedRange :=
  s.ranges.filterMap fun (name, r) => if name == filename then some r else none

/-- A range suppresses a rule on a line. -/
def SuppressedRange.covers (r : SuppressedRange) (line : Int) (rule : Text) : Bool :=
  r.start ≤ line && line ≤ r.stop && (r.rules.isEmpty || r.rules.contains rule)

/-- Issues of a rule are suppressed at a place. -/
def suppresses (s : Suppression) (p : Place) (rule : Text) : Bool :=
  (s.rangesIn p.filename).any fun r => SuppressedRange.covers r p.line rule

end Suppression

end CaseCover
