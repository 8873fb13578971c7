import CaseCover.Text.Space

/-!
# Layout of source lines

Widths on a display with tab stops every eight cells and one cell for any other character, and the
white space that the lines of a snippet have in common.
-/

namespace CaseCover.Layout

/-- The distance of tab stops. -/
def tabStop : Nat := 8

/-- The width after one more character. -/
def advance (width : Nat) (c : Text.Character) : Nat :=
  if c.code == 9 then width + (tabStop - width % tabStop) else width + 1

/-- The width of the characters before the one that starts at byte column `column`. `index` is the
byte index of the next character. -/
def columnFrom (column : Int) : Nat → Nat → List Text.Character → Nat
  | _, width, [] => width
  | index, width, c :: rest =>
    if (index : Int) + 1 = column then width
    else columnFrom column (index + c.bytes.length) (advance width c) rest

/-- The display column, from 0, of the character that starts at a byte column, from 1. A column
that no character starts at gives the width of the whole line, a negative one gives 0. -/
def displayColumn (line : Text) (column : Int) : Nat :=
  if column < 0 then 0 else columnFrom column 0 0 (Text.characters line)

/-- The common start of two lists. -/
def commonStart {α : Type} [BEq α] : List α → List α → List α
  | a :: as, b :: bs => if a == b then a :: commonStart as bs else []
  | _, _ => []

/-- The common start of two texts, character by character; a text that is not valid is read with
replacement characters. -/
def commonTextStart (a b : Text) : Text :=
  (commonStart (Text.codes a) (Text.codes b)).flatMap Text.ofCode

/-- The leading white space of a line that has anything else on it. -/
def indentOf? (line : Text) : Option (List Nat) :=
  let cs := Text.characters line
  let space := cs.takeWhile Text.Character.isSpace
  if space.length == cs.length then none else some (space.map (·.code))

/-- The common start of the indents still to come, given what is common so far. -/
def commonFrom : List Nat → List (List Nat) → List Nat
  | indent, [] => indent
  | indent, next :: rest =>
    let common := commonStart indent next
    if common.isEmpty then [] else commonFrom common rest

/-- The white space that starts every line, lines of white space only left aside. -/
def sharedIndent (lines : List Text) : Text :=
  match lines.filterMap indentOf? with
  | [] => []
  | first :: rest => (commonFrom first rest).flatMap Text.ofCode

/-- The number of characters of a line number. -/
def numberWidth (n : Int) : Nat := (Text.ofInt n).length

/-- A range of lines lies inside the given number of lines. -/
def isLineRange (start stop : Int) (count : Nat) : Bool :=
  0 < start && 0 < stop && start ≤ stop && start ≤ count && stop ≤ count

/-- A text padded with blanks on the left. -/
def padLeft (width : Nat) (t : Text) : Text := List.replicate (width - t.length) 0x20 ++ t

end CaseCover.Layout
