import CaseCover.Source.Position
import CaseCover.Source.Token

/-!
# Line directives

A comment `//line file:line` or `//line file:line:column` at the start of a line, or the same in a
block comment anywhere, says where the text after it is to be reported. A directive without a
number is an ordinary comment, one with a malformed or absurd number is a fault. Numbers are words
of 64 bits with a sign, so the greatest of them stand for negative lines and columns.
-/

namespace CaseCover.LineDirective

/-- The greatest line or column a directive may give. -/
def limit : Int := 2 ^ 30

/-- A line or column that a directive may give. -/
def isCount (n : Int) : Bool := n ≠ 0 && n ≤ limit

/-- The number behind the last colon of a text: what stands before the colon, and the number
unless what follows is none or takes more than 64 bits. -/
def trailingNumber (t : Text) : Option (Text × Option Int) :=
  if t.contains 0x3A then
    let digits := (t.reverse.takeWhile (· ≠ 0x3A)).reverse
    let front := t.take (t.length - digits.length - 1)
    let n := (Text.toNat? 10 digits).filter (· < 2 ^ 64)
    some (front, if digits.all Text.isDigit then n.map fun n => (n : Int).bmod (2 ^ 64) else none)
  else none

/-- The comment without the carriage return that ends a `//` line. -/
def withoutReturn (text : Text) : Text :=
  if (text.drop 1).head? == some 0x2F && text.getLast? == some 0x0D then text.dropLast else text

/-- The body of a comment that has the form of a directive. `atLineStart` tells whether it starts
its line, which a `//` comment has to. -/
def body? (atLineStart : Bool) (text : Text) : Option Text :=
  let text := withoutReturn text
  let isBlock := (text.drop 1).head? == some 0x2A
  if (isBlock || atLineStart) && Text.startsWith (text.drop 2) "line " then
    some (if isBlock then (text.drop 7).take (text.length - 9) else text.drop 7)
  else none

/-- A file name of a directive: relative names are taken in the directory of the file. -/
def resolve (fileName name : Text) : Text :=
  if name.isEmpty then []
  else
    let name := Path.clean name
    if Path.isAbs name then name else Path.join [(Path.split fileName).1, name]

/-- The directive of a comment, given the map built from the directives before it. -/
def ofComment (f : FileMap) (c : RawComment) : Except LexicalFault (Option LineMark) :=
  let atLineStart := f.lineStarts.contains c.offset
  match body? atLineStart c.text with
  | none => .ok none
  | some body =>
    match trailingNumber body with
    | none => .ok none
    | some (_, none) => .error .malformedLineDirective
    | some (front, some n) =>
      match trailingNumber front with
      | some (name, some line) =>
        if !(isCount n && isCount line) then .error .malformedLineDirective
        else
          let (written, filename) :=
            if name.isEmpty then
              let here := c.offset + 7
              (((FileMap.markAt f.marks here).map (·.written)).getD f.name, (f.reported here).filename)
            else (name, resolve f.name name)
          .ok (some ⟨c.next, written, filename, line, n⟩)
      | _ =>
        if !isCount n then .error .malformedLineDirective
        else .ok (some ⟨c.next, front, resolve f.name front, n, 0⟩)

/-- A directive joins the map when it comes after the others and inside the file. -/
def addMark (f : FileMap) (m : LineMark) : FileMap :=
  let later := match f.marks.getLast? with
    | some last => last.offset < m.offset
    | none => true
  if later && m.offset < f.size then { f with marks := f.marks ++ [m] } else f

/-- The map of a file with the directives of its comments. -/
def collect (f : FileMap) : List RawComment → Except LexicalFault FileMap
  | [] => .ok f
  | c :: rest => do
    match ← ofComment f c with
    | some m => collect (addMark f m) rest
    | none => collect f rest

end CaseCover.LineDirective
