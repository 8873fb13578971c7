import CaseCover.Text.Quoted
import CaseCover.Text.Space

/-!
# The syntax of module files

A module file consists of lines of words. A line that ends in an opening parenthesis starts a block,
which has lines of its own up to a closing parenthesis. Comments run from two slashes to the end of
the line. Words in quotes are kept as they are written; what they stand for depends on their place.

A file that does not follow this has one fault, the first that is met. Faults have a place in lines
and characters, counted from 1.
-/

namespace CaseCover

namespace ModuleFile

/-- A place in a module file. -/
structure Spot where
  line : Nat
  column : Nat
deriving DecidableEq

/-- The place after a character. -/
def Spot.after (s : Spot) (c : Text.Character) : Spot :=
  if c.code == 0x0A then ⟨s.line + 1, 1⟩ else ⟨s.line, s.column + 1⟩

/-- The place after characters. -/
def Spot.afterAll (s : Spot) (cs : List Text.Character) : Spot := cs.foldl Spot.after s

/-- Why a text is no sequence of lines and blocks. -/
inductive SyntaxCause where
  | endInQuotes
  | newlineInQuotes
  | strayCharacter (code : Nat)
  | blockComment
  | unclosedBlock (start : Spot)
  | wordsAfterBlock
deriving DecidableEq

/-- A fault in the syntax. -/
structure SyntaxFault where
  spot : Spot
  cause : SyntaxCause
deriving DecidableEq

/-! ## Tokens -/

/-- The kinds of tokens. A remark is a comment behind other tokens, and ends their line; a comment has
its line for itself. What is not a token has a cause and ends the list of tokens. -/
inductive TokenKind where
  | word
  | mark
  | newline
  | remark
  | comment
  | finish
  | none (cause : SyntaxCause)
deriving DecidableEq

/-- A token with its text and the places where it starts and stops. -/
structure Token where
  kind : TokenKind
  text : Text
  start : Spot
  stop : Spot
deriving DecidableEq

/-- The token is at the end of a line. -/
def Token.endsLine (t : Token) : Bool := t.kind == .newline || t.kind == .remark || t.kind == .finish

/-- The token is a given mark. -/
def Token.isMark (t : Token) (m : String) : Bool := t.kind == .mark && t.text == utf8 m

/-- Characters that separate tokens. -/
def isBlank (code : Nat) : Bool := code == 0x20 || code == 0x09 || code == 0x0D

/-- Characters that are tokens by themselves. -/
def isMark (code : Nat) : Bool := [0x28, 0x29, 0x5B, 0x5D, 0x7B, 0x7D, 0x2C].contains code

/-- Characters of words. -/
def isWordCode (code : Nat) : Bool :=
  code != 0x20 && !isMark code && !Text.isSpaceCode code && Text.isPrintableCode code

/-- The characters start with two given ones. -/
def startsPair (a b : Nat) : List Text.Character → Bool
  | c :: d :: _ => c.code == a && d.code == b
  | _ => false

/-- Characters start a comment to the end of the line. -/
def startsComment (cs : List Text.Character) : Bool := startsPair 0x2F 0x2F cs

/-- Characters start a comment of a kind that is not allowed. -/
def startsBlockComment (cs : List Text.Character) : Bool := startsPair 0x2F 0x2A cs

/-- How many characters a word has, or how many stand before a comment that is not allowed. -/
def wordLength : List Text.Character → Except Nat Nat
  | [] => .ok 0
  | c :: rest =>
    if !isWordCode c.code || startsComment (c :: rest) then .ok 0
    else if startsBlockComment (c :: rest) then .error 0
    else
      match wordLength rest with
      | .ok n => .ok (n + 1)
      | .error n => .error (n + 1)

/-- How many characters follow an opening quote up to and with the closing one. A backslash takes the
next character with it unless the quotes are reversed. Where the quotes are not closed, how many
characters stand before that is noticed, and whether a line has ended. -/
def quotedLength (quote : Nat) : Bool → List Text.Character → Except (Nat × Bool) Nat
  | _, [] => .error (0, false)
  | escaped, c :: rest =>
    if !escaped && c.code == 0x0A then .error (0, true)
    else if !escaped && c.code == quote then .ok 1
    else
      match quotedLength quote (!escaped && c.code == 0x5C && quote != 0x60) rest with
      | .ok n => .ok (n + 1)
      | .error (n, ended) => .error (n + 1, ended)

/-- The tokens of a text, which end with the end of the text or with what is no token. `fresh` tells
that the line has no token yet. -/
def tokensFrom : Nat → Bool → Spot → List Text.Character → List Token
  | 0, _, spot, _ => [⟨.finish, [], spot, spot⟩]
  | _ + 1, _, spot, [] => [⟨.finish, [], spot, spot⟩]
  | n + 1, fresh, spot, c :: rest =>
    let cs := c :: rest
    let none := fun cause spot => ([⟨.none cause, [], spot, spot⟩] : List Token)
    let take := fun kind count =>
      let stop := spot.afterAll (cs.take count)
      ⟨kind, Text.ofCharacters (cs.take count), spot, stop⟩ ::
        tokensFrom n (kind == .newline) stop (cs.drop count)
    if isBlank c.code then tokensFrom n fresh (spot.after c) rest
    else if startsComment cs then
      take (if fresh then .comment else .remark) (cs.takeWhile fun c => c.code != 0x0A).length
    else if startsBlockComment cs then none .blockComment spot
    else if c.code == 0x0A then take .newline 1
    else if isMark c.code then take .mark 1
    else if c.code == 0x22 || c.code == 0x60 then
      match quotedLength c.code false rest with
      | .ok count => take .word (count + 1)
      | .error (before, true) => none .newlineInQuotes (spot.afterAll (cs.take (before + 1)))
      | .error (_, false) => none .endInQuotes spot
    else if !isWordCode c.code then none (.strayCharacter c.code) spot
    else
      match wordLength cs with
      | .ok count => take .word count
      | .error before => none .blockComment (spot.afterAll (cs.take before))

/-- The tokens of a text. -/
def tokens (t : Text) : List Token :=
  let cs := Text.characters t
  tokensFrom (cs.length + 1) true ⟨1, 1⟩ cs

/-! ## Statements -/

/-- A line of words with the place where it starts. -/
structure Line where
  start : Spot
  words : List Text
deriving DecidableEq

/-- A statement: a line, or the words before a block with the lines of the block. -/
inductive Statement where
  | line (line : Line)
  | block (head : Line) (lines : List Line)
deriving DecidableEq

/-- Nothing but the end of a line may follow; what follows it is given. -/
def endOfLine (cause : SyntaxCause) : List Token → Except SyntaxFault (List Token)
  | [] => .ok []
  | t :: rest =>
    match t.kind with
    | .none cause => .error ⟨t.start, cause⟩
    | .finish => .ok (t :: rest)
    | _ => if t.endsLine then .ok rest else .error ⟨t.stop, cause⟩

/-- The words up to the end of the line, and what follows the line. -/
def restOfLine : List Token → Except SyntaxFault (List Text × List Token)
  | [] => .ok ([], [])
  | t :: rest =>
    match t.kind with
    | .none cause => .error ⟨t.start, cause⟩
    | .finish => .ok ([], t :: rest)
    | _ =>
      if t.endsLine then .ok ([], rest)
      else do
        let (words, rest) ← restOfLine rest
        return (t.text :: words, rest)

/-- The lines of a block that starts at a place, and what follows the block. -/
def blockLines (start : Spot) : Nat → List Token → Except SyntaxFault (List Line × List Token)
  | 0, _ => .ok ([], [])
  | _, [] => .ok ([], [])
  | n + 1, t :: rest =>
    match t.kind with
    | .none cause => .error ⟨t.start, cause⟩
    | .finish => .error ⟨t.stop, .unclosedBlock start⟩
    | .newline | .remark | .comment => blockLines start n rest
    | _ =>
      if t.isMark ")" then do return ([], ← endOfLine .wordsAfterBlock rest)
      else do
        let (words, rest) ← restOfLine (t :: rest)
        let (lines, rest) ← blockLines start n rest
        return (⟨t.start, words⟩ :: lines, rest)

/-- The statement that starts with some words, and what follows it. An opening parenthesis starts a
block at the end of a line only, and a closing one right after it ends the block there. -/
def statement (start : Spot) : Nat → List Text → List Token → Except SyntaxFault (Statement × List Token)
  | 0, words, rest => .ok (.line ⟨start, words⟩, rest)
  | _, words, [] => .ok (.line ⟨start, words⟩, [])
  | n + 1, words, t :: rest =>
    match t.kind, rest with
    | .none cause, _ => .error ⟨t.start, cause⟩
    | .finish, _ => .ok (.line ⟨start, words⟩, t :: rest)
    | _, [] => .ok (.line ⟨start, words⟩, [])
    | _, u :: after =>
      if t.endsLine then .ok (.line ⟨start, words⟩, rest)
      else if t.isMark "(" && u.endsLine then do
        let (lines, rest) ← blockLines start n rest
        return (.block ⟨start, words⟩ lines, rest)
      else if t.isMark "(" && u.isMark ")" && (after.head?.map Token.endsLine).getD true then do
        return (.block ⟨start, words⟩ [], ← endOfLine .wordsAfterBlock after)
      else statement start n (words ++ [t.text]) rest

/-- The statements that tokens make up. -/
def statements : Nat → List Token → Except SyntaxFault (List Statement)
  | 0, _ => .ok []
  | _, [] => .ok []
  | n + 1, t :: rest =>
    match t.kind with
    | .none cause => .error ⟨t.start, cause⟩
    | .finish => .ok []
    | .newline | .remark | .comment => statements n rest
    | _ => do
      let (s, rest) ← statement t.start n [t.text] rest
      return s :: (← statements n rest)

/-- The statements of a module file. -/
def read (content : Text) : Except SyntaxFault (List Statement) :=
  let ts := tokens content
  statements (ts.length + 1) ts

/-! ## Messages -/

/-- The name of a file with a place in it; a column is not told where it is the first one. -/
def Spot.text (file : Text) (s : Spot) : Text :=
  file ++ utf8 ":" ++ Text.ofNat s.line ++
    (if 1 < s.column then utf8 ":" ++ Text.ofNat s.column else [])

/-- The message of a cause in a file. -/
def SyntaxCause.message (file : Text) : SyntaxCause → Text
  | .endInQuotes => "unexpected EOF in string"
  | .newlineInQuotes => "unexpected newline in string"
  | .strayCharacter code => utf8 "unexpected input character " ++ Text.quotedCode code
  | .blockComment => "mod files must use // comments (not /* */ comments)"
  | .unclosedBlock s =>
    utf8 "syntax error (unterminated block started at " ++ file ++ utf8 ":" ++ Text.ofNat s.line ++
      utf8 ":" ++ Text.ofNat s.column ++ utf8 ")"
  | .wordsAfterBlock => "syntax error (expected newline after closing paren)"

end ModuleFile

end CaseCover
