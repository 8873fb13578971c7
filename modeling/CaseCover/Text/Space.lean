import CaseCover.Text

/-!
# White space

White space is what the Unicode property `White_Space` says, in a text read character by
character. A byte that belongs to no valid sequence is never white space.
-/

namespace CaseCover.Text

/-- The white space characters. -/
def isSpaceCode (n : Nat) : Bool :=
  (0x09 ≤ n && n ≤ 0x0D) || n == 0x20 || n == 0x85 || n == 0xA0 || n == 0x1680 ||
  (0x2000 ≤ n && n ≤ 0x200A) || n == 0x2028 || n == 0x2029 || n == 0x202F || n == 0x205F ||
  n == 0x3000

/-- A character is white space. -/
def Character.isSpace (c : Character) : Bool := isSpaceCode c.code

/-- The text without its leading white space. -/
def trimLeft (t : Text) : Text :=
  ofCharacters ((characters t).dropWhile Character.isSpace)

/-- The white space in front of a text. -/
def leadingSpace (t : Text) : Text :=
  ofCharacters ((characters t).takeWhile Character.isSpace)

/-- The text without leading and trailing white space. -/
def trim (t : Text) : Text :=
  ofCharacters <| ((characters t).dropWhile Character.isSpace).reverse.dropWhile Character.isSpace
    |>.reverse

/-- The non-empty trimmed items of a comma-separated list. -/
def listItems (t : Text) : List Text :=
  ((splitOn "," t).map trim).filter fun item => !item.isEmpty

/-- The words of characters; `word` has those of the current word, last first. -/
def wordsFrom (word : List Character) : List Character → List Text
  | [] => if word.isEmpty then [] else [ofCharacters word.reverse]
  | c :: rest =>
    if c.isSpace then
      if word.isEmpty then wordsFrom [] rest else ofCharacters word.reverse :: wordsFrom [] rest
    else wordsFrom (c :: word) rest

/-- The parts of a text between white space. -/
def words (t : Text) : List Text := wordsFrom [] (characters t)

theorem leadingSpace_append_trimLeft (t : Text) : leadingSpace t ++ trimLeft t = t := by
  unfold leadingSpace trimLeft ofCharacters
  rw [← List.flatMap_append, List.takeWhile_append_dropWhile, flatMap_bytes_characters]

end CaseCover.Text
