import CaseCover.Yaml.Characters

/-!
# A place in a document

Documents are read character by character. A cursor knows the characters that are left and where
they stand: how many came before, on which line, and in which column of it.
-/

namespace CaseCover.Yaml

/-- A place in a document. -/
structure Cursor where
  rest : List Char
  index : Nat
  line : Nat
  column : Nat

/-- Line breaks: the ASCII ones, the next-line character and the two separators. -/
def isBreak (c : Char) : Bool :=
  c == '\n' || c == '\r' || c == '\u0085' || c == '\u2028' || c == '\u2029'

/-- Spaces and tabs. -/
def isBlank (c : Char) : Bool := c == ' ' || c == '\t'

/-- Letters, digits, underscores and dashes. -/
def isWord (c : Char) : Bool := c.isAlphanum || c == '_' || c == '-'

/-- The bytes of characters. -/
def textOf (cs : List Char) : Text := cs.flatMap String.utf8EncodeChar

namespace Cursor

/-- The start of a document. -/
def start (cs : List Char) : Cursor := ⟨cs, 0, 0, 0⟩

/-- The character `n` places ahead. -/
def peek (c : Cursor) (n : Nat) : Option Char := (c.rest.drop n).head?

/-- A given character stands `n` places ahead. -/
def sees (c : Cursor) (n : Nat) (x : Char) : Bool := c.peek n == some x

/-- The document ends here. -/
def atEnd (c : Cursor) : Bool := c.rest.isEmpty

/-- A blank stands here. -/
def atBlank (c : Cursor) : Bool := (c.peek 0).any isBlank

/-- A line break stands here. -/
def atBreak (c : Cursor) : Bool := (c.peek 0).any isBreak

/-- A blank, a line break or the end stands `n` places ahead. -/
def gapAt (c : Cursor) (n : Nat) : Bool := (c.peek n).all fun x => isBlank x || isBreak x

/-- The line ends here. -/
def atLineEnd (c : Cursor) : Bool := (c.peek 0).all isBreak

/-- One of the next `n` characters cannot be read. -/
def isCut (c : Cursor) (n : Nat) : Bool := (c.rest.take n).contains unreadable

/-- `n` characters further on the same line. -/
def skip (c : Cursor) (n : Nat) : Cursor :=
  ⟨c.rest.drop n, c.index + n, c.line, c.column + n⟩

/-- The characters from here on that satisfy `p`, and the place after them. None of them may be a
line break. -/
def span (c : Cursor) (p : Char → Bool) : List Char × Cursor :=
  let cs := c.rest.takeWhile p
  (cs, c.skip cs.length)

/-- The place after the blanks. -/
def skipBlanks (c : Cursor) : Cursor := (c.span isBlank).2

/-- The place at the end of the line. -/
def skipToLineEnd (c : Cursor) : Cursor := (c.span fun x => !isBreak x).2

/-- The line break that stands here as it is kept in a scalar, and the place after it. All breaks
but the two separators become a line feed. -/
def takeBreak (c : Cursor) : List Char × Cursor :=
  match c.rest with
  | '\r' :: '\n' :: r => (['\n'], ⟨r, c.index + 2, c.line + 1, 0⟩)
  | x :: r =>
    if x == '\u2028' || x == '\u2029' then ([x], ⟨r, c.index + 1, c.line + 1, 0⟩)
    else if isBreak x then (['\n'], ⟨r, c.index + 1, c.line + 1, 0⟩)
    else ([], c)
  | [] => ([], c)

/-- A line that starts here is a document mark: three times `x`, and then a gap. -/
def atMark (c : Cursor) (x : Char) : Bool :=
  c.column == 0 && c.sees 0 x && c.sees 1 x && c.sees 2 x && c.gapAt 3

/-- A line that starts here begins or ends a document. -/
def atDocumentMark (c : Cursor) : Bool := c.atMark '-' || c.atMark '.'

end Cursor

end CaseCover.Yaml
