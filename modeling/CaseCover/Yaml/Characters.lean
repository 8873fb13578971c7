import CaseCover.Text

/-!
# Characters of a document

A document is text in UTF-8, or in UTF-16 after a byte order mark. It is read block by block, 512
bytes at a time, and only as far as it is needed. A block with something in it that is no character
of a document cannot be read at all; the characters end before it with the character `unreadable`,
which no document has.
-/

namespace CaseCover.Yaml

/-- How characters are kept in bytes. -/
inductive Encoding where
  | utf8
  | utf16 (littleEndian : Bool)
deriving DecidableEq

/-- The character in place of what cannot be read. -/
def unreadable : Char := '\x00'

/-- Characters that may stand in a document. -/
def isAllowed (n : Nat) : Bool :=
  n == 0x09 || n == 0x0A || n == 0x0D || (0x20 ≤ n && n ≤ 0x7E) || n == 0x85 ||
    (0xA0 ≤ n && n ≤ 0xD7FF) || (0xE000 ≤ n && n ≤ 0xFFFD) || (0x10000 ≤ n && n ≤ 0x10FFFF)

/-- What stands at the start of bytes: a character and how many bytes it takes, the first bytes of
a character, or no character at all. -/
inductive Reading where
  | character (code width : Nat)
  | incomplete
  | malformed

namespace Encoding

/-- The encoding that a byte order mark announces, and the length of the mark. -/
def announced : Text → Encoding × Nat
  | 0xFF :: 0xFE :: _ => (.utf16 true, 2)
  | 0xFE :: 0xFF :: _ => (.utf16 false, 2)
  | 0xEF :: 0xBB :: 0xBF :: _ => (.utf8, 3)
  | _ => (.utf8, 0)

/-- The number of bytes that a first byte announces. -/
def widthOf (b : UInt8) : Option Nat :=
  if b < 0x80 then some 1
  else if b < 0xC0 then none
  else if b < 0xE0 then some 2
  else if b < 0xF0 then some 3
  else if b < 0xF8 then some 4
  else none

/-- The least code that needs so many bytes. -/
def leastCode : Nat → Nat
  | 2 => 0x80
  | 3 => 0x800
  | 4 => 0x10000
  | _ => 0

/-- Reads a character of UTF-8. -/
def readUtf8 (b : UInt8) (rest : Text) : Reading :=
  match widthOf b with
  | none => .malformed
  | some width =>
    if rest.length + 1 < width then .incomplete
    else
      let more := rest.take (width - 1)
      let first := if width = 1 then b.toNat else b.toNat % 2 ^ (7 - width)
      let code := more.foldl (fun n c => n * 64 + c.toNat % 64) first
      if more.all (fun c => 0x80 ≤ c && c < 0xC0) && leastCode width ≤ code then .character code width
      else .malformed

/-- A unit of 16 bits. -/
def unit (littleEndian : Bool) (a b : UInt8) : Nat :=
  if littleEndian then a.toNat + b.toNat * 256 else b.toNat + a.toNat * 256

/-- A unit in the range of the first halves of pairs. -/
def isHigh (n : Nat) : Bool := 0xD800 ≤ n && n < 0xDC00

/-- A unit in the range of the second halves of pairs. -/
def isLow (n : Nat) : Bool := 0xDC00 ≤ n && n < 0xE000

/-- Reads a character of UTF-16: one unit, or a pair of them. -/
def readUtf16 (littleEndian : Bool) : Text → Reading
  | a :: b :: rest =>
    let n := unit littleEndian a b
    if isLow n then .malformed
    else if isHigh n then
      match rest with
      | c :: d :: _ =>
        let m := unit littleEndian c d
        if isLow m then .character (0x10000 + n % 1024 * 1024 + m % 1024) 4 else .malformed
      | _ => .incomplete
    else .character n 2
  | _ => .incomplete

/-- Reads a character. -/
def read (e : Encoding) (t : Text) : Reading :=
  match e, t with
  | _, [] => .incomplete
  | .utf8, b :: rest => readUtf8 b rest
  | .utf16 little, t => readUtf16 little t

/-- The characters of a block and the bytes left at its end; none when something is no character
of a document. -/
def readBlock (e : Encoding) : Nat → Text → List Char → Option (List Char × Text)
  | 0, t, done => some (done.reverse, t)
  | fuel + 1, t, done =>
    match e.read t with
    | .incomplete => some (done.reverse, t)
    | .malformed => none
    | .character code width =>
      if isAllowed code then readBlock e fuel (t.drop width) (Char.ofNat code :: done) else none

end Encoding

/-- The number of bytes that are read at a time. -/
def blockSize : Nat := 512

/-- The characters of what is left: bytes that were read before and bytes that were not. -/
def readBlocks (e : Encoding) : Nat → Text → Text → List Char
  | 0, _, _ => [unreadable]
  | fuel + 1, left, rest =>
    let size := blockSize - left.length
    match e.readBlock blockSize (left ++ rest.take size) [] with
    | none => [unreadable]
    | some (cs, left) =>
      if (rest.drop size).isEmpty then if left.isEmpty then cs else cs ++ [unreadable]
      else cs ++ readBlocks e fuel left (rest.drop size)

/-- The characters of a text without a byte order mark at its start, as far as they can be read. -/
def charactersOf (t : Text) : List Char :=
  let (e, mark) := Encoding.announced t
  match e.readBlock blockSize ((t.take blockSize).drop mark) [] with
  | none => [unreadable]
  | some (cs, left) =>
    if (t.drop blockSize).isEmpty then if left.isEmpty then cs else cs ++ [unreadable]
    else cs ++ readBlocks e (t.length + 1) left (t.drop blockSize)

end CaseCover.Yaml
