import CaseCover.Source.Tree
import CaseCover.Text.Letter

/-!
# Tokens

A source text becomes a list of tokens and a list of comments. A line break after a token that can
end a statement counts as a semicolon. Reading stops at the first fault: a byte sequence that is
not UTF-8, a NUL byte, a byte order mark inside the text, an illegal character, or a literal or
comment that is malformed or not closed.
-/

namespace CaseCover

/-- Why a text is not a sequence of tokens. -/
inductive LexicalFault where
  | notText
  | illegalCharacter
  | malformedNumber
  | malformedEscape
  | malformedCharacter
  | unterminatedString
  | unterminatedComment
  | malformedLineDirective
deriving DecidableEq

/-- The kinds of tokens. -/
inductive TokenKind where
  | eof
  | ident
  | literal (kind : Const.LiteralKind)
  | op (o : Op)
  | keyword (k : Keyword)
deriving DecidableEq

/-- A token: where it starts, its kind and its text. A semicolon that stands for a line break has
a line break as its text. -/
structure Token where
  pos : Pos
  kind : TokenKind
  text : Text
deriving DecidableEq

/-- A comment as it stands in the text: the offset of its first byte, the offset after it (with
the line break of a `//` comment) and its text. -/
structure RawComment where
  offset : Nat
  next : Nat
  text : Text
deriving DecidableEq

namespace Token

/-! ## Names -/

/-- A character that may start a name. -/
def isNameStart (n : Nat) : Bool := n == 0x5F || Text.isLetterCode n

/-- A character inside a name. -/
def isNamePart (n : Nat) : Bool := isNameStart n || Text.isDigitCode n

/-- The name at the start of a text, whose first `skip` bytes belong to it already. -/
def nameFrom : Nat → Text → Text
  | _, [] => []
  | k + 1, b :: rest => b :: nameFrom k rest
  | 0, b :: rest =>
    let c := Text.leading b rest
    if isNamePart c.code then b :: nameFrom (c.bytes.length - 1) rest else []

/-- The name at the start of a text and the rest. -/
def splitName (t : Text) : Text × Text :=
  let name := nameFrom 0 t
  (name, t.drop name.length)

/-! ## Numbers -/

/-- Hexadecimal digits. -/
def isHex (b : UInt8) : Bool :=
  Text.isDigit b || (0x61 ≤ b && b ≤ 0x66) || (0x41 ≤ b && b ≤ 0x46)

/-- ASCII letters as lower case. -/
def lower (b : UInt8) : UInt8 := b ||| 0x20

/-- The digits and underscores at the start of a text. -/
def digitRun (base : Nat) (t : Text) : Text :=
  t.takeWhile fun b => b == 0x5F || (if base ≤ 10 then Text.isDigit b else isHex b)

/-- A run holds a digit. -/
def hasDigit (run : Text) : Bool := run.any (· ≠ 0x5F)

/-- Each underscore of a number separates successive digits, a base mark counting as a digit.
`prev` is 2 after an underscore, 1 after a digit and 0 after anything else. -/
def separatesDigits (isHexNumber : Bool) : Nat → Text → Bool
  | prev, [] => prev ≠ 2
  | prev, b :: rest =>
    if b == 0x5F then prev == 1 && separatesDigits isHexNumber 2 rest
    else if Text.isDigit b || (isHexNumber && isHex b) then separatesDigits isHexNumber 1 rest
    else prev ≠ 2 && separatesDigits isHexNumber 0 rest

/-- The kind, text and rest of the number at the start of a text. -/
def scanNumber (t : Text) : Except LexicalFault (Const.LiteralKind × Text × Text) := do
  let (mark, afterMark) : Option UInt8 × Text :=
    match t with
    | 0x30 :: b :: rest =>
      if lower b == 0x78 || lower b == 0x6F || lower b == 0x62 then (some (lower b), rest)
      else (none, t)
    | t => (none, t)
  let base := if mark == some 0x78 then 16 else 10
  let whole := digitRun base afterMark
  let afterWhole := afterMark.drop whole.length
  let pointed := afterWhole.head? == some 0x2E
  let fraction := if pointed then digitRun base (afterWhole.drop 1) else []
  let afterFraction := if pointed then afterWhole.drop (1 + fraction.length) else afterWhole
  if pointed && (mark == some 0x6F || mark == some 0x62) then throw .malformedNumber
  if !(hasDigit whole || hasDigit fraction) then throw .malformedNumber
  let (isFloat, afterExponent) ←
    match afterFraction with
    | e :: rest =>
      if lower e == 0x65 || lower e == 0x70 then do
        if lower e == 0x65 && mark.isSome then throw .malformedNumber
        if lower e == 0x70 && mark != some 0x78 then throw .malformedNumber
        let rest := if rest.head? == some 0x2B || rest.head? == some 0x2D then rest.drop 1 else rest
        let ds := digitRun 10 rest
        if !hasDigit ds then throw .malformedNumber
        pure (true, rest.drop ds.length)
      else if pointed && mark == some 0x78 then throw .malformedNumber
      else pure (pointed, afterFraction)
    | [] =>
      if pointed && mark == some 0x78 then throw .malformedNumber
      else pure (pointed, afterFraction)
  let imaginary := afterExponent.head? == some 0x69
  let rest := if imaginary then afterExponent.drop 1 else afterExponent
  let text := t.take (t.length - rest.length)
  let kind : Const.LiteralKind := if imaginary then .imag else if isFloat then .float else .int
  if kind = .int then
    let limit : UInt8 :=
      if mark == some 0x62 then 0x32
      else if mark == some 0x6F || (mark.isNone && whole.head? == some 0x30) then 0x38
      else 0x3A
    if mark != some 0x78 && whole.any (fun b => b ≠ 0x5F && limit ≤ b) then throw .malformedNumber
  let body := if mark.isSome then text.drop 2 else text
  if text.contains 0x5F &&
      !separatesDigits (mark == some 0x78) (if mark.isSome then 1 else 0) body then
    throw .malformedNumber
  pure (kind, text, rest)

/-! ## Characters and strings -/

/-- Passes over the escape after a backslash. -/
def skipEscape (quote : UInt8) (t : Text) : Except LexicalFault Text :=
  match t with
  | [] => .error .malformedEscape
  | b :: rest =>
    if b == quote || b == 0x5C || (Const.escapeValue b).isSome then .ok rest
    else
      let number := fun (base count limit : Nat) (digits : Text) =>
        match Const.takeDigits base count digits with
        | some (n, after) =>
          if limit < n || (0xD800 ≤ n && n < 0xE000) then .error .malformedEscape else .ok after
        | none => .error .malformedEscape
      if 0x30 ≤ b && b ≤ 0x37 then number 8 3 255 t
      else if b == 0x78 then number 16 2 255 rest
      else if b == 0x75 then number 16 4 0x10FFFF rest
      else if b == 0x55 then number 16 8 0x10FFFF rest
      else .error .malformedEscape

/-- Passes over the body of a character or string up to its closing quote, counting characters. -/
def skipQuoted (quote : UInt8) : Nat → Nat → Text → Except LexicalFault (Nat × Text)
  | 0, _, _ => .error .unterminatedString
  | _, _, [] => .error .unterminatedString
  | fuel + 1, count, b :: rest =>
    if b == 0x0A then .error .unterminatedString
    else if b == quote then .ok (count, rest)
    else if b == 0x5C then do skipQuoted quote fuel (count + 1) (← skipEscape quote rest)
    else
      let c := Text.leading b rest
      skipQuoted quote fuel (count + 1) (rest.drop (c.bytes.length - 1))

/-- The text before the closing back quote and the rest. -/
def splitRaw : Text → Except LexicalFault (Text × Text)
  | [] => .error .unterminatedString
  | b :: rest =>
    if b == 0x60 then .ok ([], rest)
    else (splitRaw rest).map fun (body, after) => (b :: body, after)

/-! ## Comments -/

/-- The body of a `/*` comment with its closing mark, and the rest. -/
def splitBlockComment : Text → Except LexicalFault (Text × Text)
  | [] => .error .unterminatedComment
  | 0x2A :: 0x2F :: rest => .ok ([0x2A, 0x2F], rest)
  | b :: rest => (splitBlockComment rest).map fun (body, after) => (b :: body, after)

/-! ## Operators -/

/-- The operator at the start of a text, the longest that fits, and the rest. -/
def splitOp (t : Text) : Option (Op × Text) :=
  let pick := fun (n : Nat) =>
    match Op.ofText? (t.take n) with
    | some o => if (t.take n).length == n && o != Op.illegal then some (o, t.drop n) else none
    | none => none
  (pick 3).or ((pick 2).or (pick 1))

/-- A line break after this token ends a statement. -/
def endsStatement : TokenKind → Bool
  | .ident => true
  | .literal _ => true
  | .keyword k => k == .kwBreak || k == .kwContinue || k == .kwFallthrough || k == .kwReturn
  | .op o => o == .inc || o == .dec || o == .rparen || o == .rbrack || o == .rbrace
  | .eof => false

/-! ## Reading a text -/

/-- One token or comment. -/
inductive Lexeme where
  | token (kind : TokenKind) (text : Text)
  | comment (text : Text)

/-- The lexeme at the start of a text that does not start with white space, and the rest. -/
def nextLexeme (b : UInt8) (rest : Text) : Except LexicalFault (Lexeme × Text) := do
  let t := b :: rest
  let first := Text.leading b rest
  if isNameStart first.code then
    let (name, after) := splitName t
    match Keyword.ofText? name with
    | some k => pure (.token (.keyword k) name, after)
    | none => pure (.token .ident name, after)
  else if Text.isDigit b || (b == 0x2E && (rest.head?.map Text.isDigit).getD false) then
    let (kind, text, after) ← scanNumber t
    pure (.token (.literal kind) text, after)
  else if b == 0x22 then
    let (_, after) ← skipQuoted 0x22 (t.length + 1) 0 rest
    pure (.token (.literal .string) (t.take (t.length - after.length)), after)
  else if b == 0x27 then
    let (count, after) ← skipQuoted 0x27 (t.length + 1) 0 rest
    if count ≠ 1 then throw .malformedCharacter
    pure (.token (.literal .char) (t.take (t.length - after.length)), after)
  else if b == 0x60 then
    let (body, after) ← splitRaw rest
    pure (.token (.literal .string) (0x60 :: body.filter (· ≠ 0x0D) ++ [0x60]), after)
  else if b == 0x2F && rest.head? == some 0x2F then
    let line := t.takeWhile (· ≠ 0x0A)
    pure (.comment line, t.drop line.length)
  else if b == 0x2F && rest.head? == some 0x2A then
    let (body, after) ← splitBlockComment (rest.drop 1)
    pure (.comment (0x2F :: 0x2A :: body), after)
  else
    match splitOp t with
    | some (o, after) => pure (.token (.op o) o.text, after)
    | none => throw .illegalCharacter

/-- What reading a text gives: its tokens, its comments, and the fault at which reading stopped. -/
structure Lexemes where
  tokens : List Token
  comments : List RawComment
  fault : Option LexicalFault

/-- Reads lexemes up to the end of the text or to the first fault. `offset` is the offset of the
next byte, `opened` tells whether a line break would end a statement here, and the lists collect in
reverse. -/
def scanFrom (base : Pos) : Nat → Nat → Bool → List Token → List RawComment → Text → Lexemes
  | 0, offset, _, tokens, comments, _ =>
    ⟨(⟨base + offset, .eof, []⟩ :: tokens).reverse, comments.reverse, some .notText⟩
  | _ + 1, offset, opened, tokens, comments, [] =>
    let ending : Token := ⟨base + offset, .eof, []⟩
    let semi : Token := ⟨base + offset, .op .semicolon, [0x0A]⟩
    ⟨(if opened then ending :: semi :: tokens else ending :: tokens).reverse, comments.reverse, none⟩
  | fuel + 1, offset, opened, tokens, comments, b :: rest =>
    if b == 0x20 || b == 0x09 || b == 0x0D then
      scanFrom base fuel (offset + 1) opened tokens comments rest
    else if b == 0x0A then
      let tokens :=
        if opened then ⟨base + offset, .op .semicolon, [0x0A]⟩ :: tokens else tokens
      scanFrom base fuel (offset + 1) false tokens comments rest
    else
      match nextLexeme b rest with
      | .error fault =>
        ⟨(⟨base + offset, .eof, []⟩ :: tokens).reverse, comments.reverse, some fault⟩
      | .ok (lexeme, after) =>
        let next := offset + (rest.length + 1 - after.length)
        match lexeme with
        | .token kind text =>
          scanFrom base fuel next (endsStatement kind) (⟨base + offset, kind, text⟩ :: tokens)
            comments after
        | .comment text =>
          -- a comment that spans lines counts as a line break
          let breaks := opened && text.contains 0x0A
          let tokens :=
            if breaks then ⟨base + offset, .op .semicolon, [0x0A]⟩ :: tokens else tokens
          let following :=
            if rest.head? == some 0x2F && after.head? == some 0x0A then next + 1 else next
          scanFrom base fuel next (opened && !breaks) tokens (⟨offset, following, text⟩ :: comments)
            after

/-- The lexemes of a text whose first byte has position `base`, as far as they can be read. A byte
order mark at the start is passed over. -/
def scan (base : Pos) (t : Text) : Lexemes :=
  let mark := (utf8 "\uFEFF").isPrefixOf t
  let body := if mark then t.drop 3 else t
  scanFrom base (body.length + 1) (if mark then 3 else 0) false [] [] body

/-- A text that may be read: valid UTF-8 without NUL bytes, and without a byte order mark after
its start. -/
def isReadable (t : Text) : Bool :=
  Text.isValid t && !t.contains 0 && !(Text.codes t).tail.contains 0xFEFF

/-- The tokens and comments of a text whose first byte has position `base`. -/
def read (base : Pos) (t : Text) : Except LexicalFault (List Token × List RawComment) :=
  if !isReadable t then .error .notText
  else
    let l := scan base t
    match l.fault with
    | some fault => .error fault
    | none => .ok (l.tokens, l.comments)

end Token

end CaseCover
