import CaseCover.Path
import CaseCover.Source.Tree

/-!
# Positions in files

The files of one analysis share one line of positions: a file takes the positions from its base to
its base plus its size, and the next file starts after that. A position has a *physical* place, the
file it lies in with its line and column, and a *reported* place, which line directives in the file
may have changed. Lines and columns count from 1, columns and offsets in bytes. A column that a
directive leaves open is 0.
-/

namespace CaseCover

/-- A place in a file. -/
structure Place where
  filename : Text
  offset : Int
  line : Int
  column : Int
deriving DecidableEq

/-- The place of no position. -/
def Place.none : Place := ⟨[], 0, 0, 0⟩

/-- A place is known when it has a line. -/
def Place.isKnown (p : Place) : Bool := 0 < p.line

/-- The text `file:line:column`, without the parts that are not known; `-` for nothing known. -/
def Place.text (p : Place) : Text :=
  let lc :=
    if p.isKnown then
      (if p.filename.isEmpty then [] else utf8 ":") ++ Text.ofInt p.line ++
        (if p.column ≠ 0 then utf8 ":" ++ Text.ofInt p.column else [])
    else []
  let t := p.filename ++ lc
  if t.isEmpty then "-" else t

/-- A line directive: from an offset on, places are counted from the given file, line and column;
column 0 leaves columns unknown. `written` is the name of the file as the directive gives it. -/
structure LineMark where
  offset : Nat
  written : Text
  filename : Text
  line : Int
  column : Int
deriving DecidableEq

/-- The map of one file: its name, the positions it takes, the offsets at which its lines start
and its line directives, both in growing order. -/
structure FileMap where
  name : Text
  base : Pos
  size : Nat
  lineStarts : List Nat
  marks : List LineMark
deriving DecidableEq

/-- The files of one analysis in the order of their positions. -/
structure FileSet where
  files : List FileMap
deriving DecidableEq

namespace FileMap

/-- The offsets at which the lines of a text start. `offset` is the offset of its first byte. -/
def lineStartsFrom : Nat → Text → List Nat
  | _, [] => []
  | offset, b :: rest =>
    if b == 0x0A && !rest.isEmpty then (offset + 1) :: lineStartsFrom (offset + 1) rest
    else lineStartsFrom (offset + 1) rest

/-- The line an offset lies on and the offset at which that line starts. -/
def lineOf (starts : List Nat) (offset : Nat) : Nat × Nat :=
  let upTo := starts.takeWhile (· ≤ offset)
  (upTo.length, upTo.getLast?.getD 0)

/-- The last directive at or before an offset. -/
def markAt (marks : List LineMark) (offset : Nat) : Option LineMark :=
  (marks.takeWhile (·.offset ≤ offset)).getLast?

/-- The physical place of an offset. -/
def physical (f : FileMap) (offset : Nat) : Place :=
  let (line, start) := lineOf f.lineStarts offset
  ⟨f.name, offset, line, offset - start + 1⟩

/-- The place of an offset as line directives report it. -/
def reported (f : FileMap) (offset : Nat) : Place :=
  let p := f.physical offset
  match markAt f.marks offset with
  | none => p
  | some m =>
    let (markLine, _) := lineOf f.lineStarts m.offset
    let distance := p.line - markLine
    let column : Int :=
      if m.column = 0 then 0
      else if distance = 0 then m.column + (offset - m.offset : Nat)
      else p.column
    ⟨m.filename, offset, m.line + distance, column⟩

/-- The physical line of an offset, in the file that a directive names. That name is taken in a given
directory. -/
def lineIn (dir : Text) (f : FileMap) (offset : Nat) : Text × Nat :=
  let name := match markAt f.marks offset with
    | some m => Path.absolute dir m.written
    | none => f.name
  (name, (lineOf f.lineStarts offset).1)

/-- The map without its line directives. -/
def withoutMarks (f : FileMap) : FileMap := { f with marks := [] }

end FileMap

namespace FileSet

/-- No files. -/
def empty : FileSet := ⟨[]⟩

/-- The position at which the next file starts. -/
def nextBase (s : FileSet) : Pos :=
  match s.files.getLast? with
  | some f => f.base + f.size + 1
  | none => 1

/-- The file a position lies in. -/
def fileOf (s : FileSet) (p : Pos) : Option FileMap :=
  s.files.find? fun f => f.base ≤ p && p ≤ f.base + f.size

/-- The reported place of a position. -/
def place (s : FileSet) (p : Pos) : Place :=
  if p = 0 then Place.none
  else
    match s.fileOf p with
    | some f => f.reported (p - f.base)
    | none => Place.none

/-- The physical line of a position, in the file that a directive names. -/
def lineIn (dir : Text) (s : FileSet) (p : Pos) : Option (Text × Nat) :=
  (s.fileOf p).map fun f => f.lineIn dir (p - f.base)

/-- The files without their line directives. -/
def withoutMarks (s : FileSet) : FileSet := ⟨s.files.map FileMap.withoutMarks⟩

end FileSet

end CaseCover
