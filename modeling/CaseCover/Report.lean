import CaseCover.Issue
import CaseCover.Report.Layout

/-!
# Reports of issues

An issue is shown as a header with rule and place, the lines it covers without their common
indent, an underline below the last of them, the message, and one line for each part of the note.

Parts of the report have a mark each. On a plain output a mark changes nothing; on a colour
display it puts the part between two escape sequences.
-/

namespace CaseCover

/-- The marks of a report: what a part of it is. -/
inductive Mark where
  | error | warning | info | rule | file | line | message | note
deriving DecidableEq

namespace Mark

/-- The colour code of a mark. -/
def colour : Mark → Nat
  | .error => 31
  | .warning => 93
  | .info => 96
  | .rule => 33
  | .file => 36
  | .line => 94
  | .message => 31
  | .note => 32

/-- A marked text: bold in its colour when colours are on. -/
def paint (colours : Bool) (s : Mark) (t : Text) : Text :=
  if colours then
    utf8 "\x1b[" ++ Text.ofNat s.colour ++ utf8 ";1m" ++ t ++ utf8 "\x1b[0;22m"
  else t

end Mark

namespace Report

/-- A number of blanks. -/
def blanks (n : Nat) : Text := Text.repeated n 0x20

/-- The header of an issue: severity, rule and place. -/
def header (colours : Bool) (i : Issue) (width : Nat) : Text :=
  let lead :=
    match i.severity with
    | .warning => Mark.warning.paint colours "warning: "
    | .info => Mark.info.paint colours "info: "
    | _ => Mark.error.paint colours "error: "
  lead ++ Mark.rule.paint colours (i.rule ++ utf8 "\n") ++
    Mark.line.paint colours (blanks width ++ utf8 "--> ") ++
    Mark.file.paint colours (i.filename ++ utf8 ":" ++ Text.ofInt i.start.line ++ utf8 ":" ++
      Text.ofInt i.start.column)

/-- The lines of a source with their numbers. -/
def numbered (lines : List Text) : List (Nat × Text) := (List.range' 1 lines.length).zip lines

/-- The lines of a source from one number to another, with their numbers; numbers without a line
are passed over. -/
def shownLines (lines : List Text) (start stop : Int) : List (Nat × Text) :=
  (numbered lines).filter fun (n, _) => start ≤ n && n ≤ stop

/-- The rows of a snippet. -/
def snippet (colours : Bool) (lines : List Text) (start stop : Int) (width : Nat)
    (indent : Text) : Text :=
  Mark.line.paint colours (blanks (width + 1) ++ utf8 "|") ++
    (shownLines lines start stop).flatMap fun (n, line) =>
      utf8 "\n" ++ Mark.line.paint colours (Layout.padLeft width (Text.ofNat n) ++ utf8 " | ") ++
        (Text.stripLead? indent line).getD line

/-- The line of a source with a number, from 1. -/
def lineAt (lines : List Text) (n : Int) : Text := (lines[(n - 1).toNat]?).getD []

/-- Where the underline starts and how long it is, in cells. -/
def underline (lines : List Text) (start stop startColumn stopColumn : Int) (indent : Text) :
    Nat × Nat :=
  let indentWidth := Layout.displayColumn indent (indent.length + 1)
  let first := Layout.displayColumn (lineAt lines start) startColumn - indentWidth
  let last : Int := (Layout.displayColumn (lineAt lines stop) stopColumn : Int) - indentWidth
  (first, (max (last - first + 1) 1).toNat)

/-- The underline and the message, or the message alone when the lines are not there. -/
def footer (colours : Bool) (message : Text) (lines : List Text)
    (start stop startColumn stopColumn : Int) (width : Nat) (indent : Text) : Text :=
  let gutter := blanks (width + 1)
  let lead := Mark.line.paint colours (gutter ++ utf8 "| ")
  if Layout.isLineRange start stop lines.length then
    let (offset, length) := underline lines start stop startColumn stopColumn indent
    lead ++ blanks offset ++
      Mark.message.paint colours (Text.repeated length 0x7E ++ utf8 "\n") ++
      Mark.line.paint colours (gutter ++ utf8 "= ") ++ Mark.message.paint colours message
  else lead ++ Mark.message.paint colours message

/-- What separates the parts of a note. -/
def noteSeparator : Text := "; "

/-- One line for each part of a note. -/
def noteLines (colours : Bool) (note : Text) (width : Nat) : List Text :=
  (Text.splitOn noteSeparator note).map fun part =>
    Mark.line.paint colours (blanks (width + 1) ++ utf8 "= ") ++
      Mark.note.paint colours "note: " ++ part

/-- The report of one issue. -/
def issue (colours : Bool) (lines : List Text) (i : Issue) : Text :=
  let start := i.start.line
  let stop := max i.stop.line start
  let width := Layout.numberWidth stop
  let indent :=
    if Layout.isLineRange start stop lines.length then
      Layout.sharedIndent ((shownLines lines start stop).map (·.2))
    else []
  let stopColumn := if i.stop.line < start then i.start.column else i.stop.column
  header colours i width ++ utf8 "\n" ++
    snippet colours lines start stop width indent ++ utf8 "\n" ++
    footer colours i.message lines start stop i.start.column stopColumn width indent ++
    (if i.note.isEmpty then [] else utf8 "\n" ++ Text.join "\n" (noteLines colours i.note width)) ++
    utf8 "\n\n"

/-- The reports of several issues of one file. -/
def issues (colours : Bool) (lines : List Text) (is : List Issue) : Text :=
  is.flatMap (issue colours lines)

end Report

end CaseCover
