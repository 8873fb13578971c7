import CaseCover.Yaml.Cursor

/-!
# Tokens of a document

A document becomes a list of tokens. Indentation turns into tokens that open and close blocks: a
block opens where a dash or a key stands further right than the block around it, and closes where
the next token stands further left. A key is only known as one when its colon follows, on the same
line and within 1024 characters; so the places where a key may have started are remembered, and the
tokens that announce it are put in front of it later.

Reading never fails. Where no token can be read, the list ends with the token `broken`. A token
cannot be read when the character after it and the blanks behind it cannot; the four characters at
its start are looked at together.
-/

namespace CaseCover.Yaml

/-- How a scalar is written. -/
inductive Style where
  | plain
  | singleQuoted
  | doubleQuoted
  | literal
  | folded
deriving DecidableEq

/-- A token of a document. -/
inductive Token where
  | streamEnd
  | documentStart
  | documentEnd
  | version (major minor : Nat)
  | tagAlias (handle lead : Text)
  | sequenceBlock
  | mappingBlock
  | blockEnd
  | sequenceOpen
  | sequenceClose
  | mappingOpen
  | mappingClose
  | dash
  | comma
  | key
  | value
  | alias (name : Text)
  | anchor (name : Text)
  | tag (handle suffix : Text)
  | scalar (style : Style) (text : Text)
  | broken
deriving DecidableEq

/-- A place where a key may have started: the number of its token, where it stands, and whether
nothing but a key may stand there. -/
structure KeyPlace where
  number : Nat
  index : Nat
  line : Nat
  column : Nat
  required : Bool

/-- The state of reading tokens. `indents` are the columns of the blocks around the current one,
and `keys` has the last possible key of each open bracket, with the block level at the end. -/
structure Scan where
  cursor : Cursor
  tokens : Array Token
  indent : Int
  indents : List Int
  keys : List (Option KeyPlace)
  keyAllowed : Bool
  ended : Bool

namespace Scan

/-- Before the first token. -/
def start (cs : List Char) : Scan := ⟨.start cs, #[], -1, [], [none], true, false⟩

/-- Inside brackets. -/
def inFlow (s : Scan) : Bool := s.keys.length > 1

/-- One more token. -/
def push (s : Scan) (t : Token) : Scan := { s with tokens := s.tokens.push t }

/-- The token of the given length at the cursor. -/
def take (s : Scan) (n : Nat) (t : Token) : Scan := { s.push t with cursor := s.cursor.skip n }

/-- A token put before the one with a number. -/
def insert (s : Scan) (number : Nat) (t : Token) : Scan :=
  let ts := s.tokens.toList
  { s with tokens := (ts.take number ++ t :: ts.drop number).toArray }

/-! ## Keys -/

/-- Forgets the possible key of the innermost bracket; fails when only a key may stand there. -/
def dropKey (s : Scan) : Option Scan :=
  match s.keys with
  | some k :: outer => if k.required then none else some { s with keys := none :: outer }
  | _ => some s

/-- Remembers that a key may start here. -/
def noteKey (s : Scan) : Option Scan := do
  if s.keyAllowed then
    let s ← s.dropKey
    let c := s.cursor
    let required := !s.inFlow && s.indent == (c.column : Int)
    return { s with keys := some ⟨s.tokens.size, c.index, c.line, c.column, required⟩ :: s.keys.drop 1 }
  else return s

/-- The possible key for a colon here: on the same line and not too far back. A place that nothing
but a key may take must not be lost. -/
def keyHere (s : Scan) : Option (Option KeyPlace) :=
  match s.keys with
  | some k :: _ =>
    if k.line < s.cursor.line || k.index + 1024 < s.cursor.index then
      if k.required then none else some none
    else some (some k)
  | _ => some none

/-! ## Blocks -/

/-- Opens a block at a column when it lies further right. -/
def openBlock (s : Scan) (column : Nat) (number : Nat) (t : Token) : Scan :=
  if s.inFlow || (column : Int) ≤ s.indent then s
  else { s.insert number t with indents := s.indent :: s.indents, indent := column }

/-- Closes the blocks that lie further right than a column. -/
def closeBlocks (column : Int) : List Int → Scan → Scan
  | outer, s =>
    if s.indent ≤ column then { s with indents := outer }
    else
      match outer with
      | [] => { s with indents := [] }
      | i :: outer => closeBlocks column outer { s.push .blockEnd with indent := i }

/-- Closes the blocks that lie further right than a column; brackets keep all of them open. -/
def unroll (s : Scan) (column : Int) : Scan :=
  if s.inFlow then s else closeBlocks column s.indents s

/-! ## Gaps -/

/-- The place of the comment sign of the next comment line, if only blanks and line breaks come
before it. -/
def nextComment : Nat → Cursor → Option Cursor
  | 0, _ => none
  | fuel + 1, c =>
    let c := c.skipBlanks
    if c.sees 0 '#' then some c
    else if c.atBreak then nextComment fuel c.takeBreak.2
    else none

/-- The place after a comment and the comment lines that follow it. -/
def skipComments : Nat → Cursor → Cursor
  | 0, c => c
  | fuel + 1, c =>
    let e := c.skipToLineEnd
    match nextComment (e.rest.length + 1) e with
    | some next => skipComments fuel next
    | none => e

/-- Passes over blanks, comments and line breaks. A tab counts as a blank where no key can start. -/
def skipGap : Nat → Scan → Scan
  | 0, s => s
  | fuel + 1, s =>
    let c := s.cursor
    let c := if c.column == 0 && c.sees 0 '\uFEFF' then c.skip 1 else c
    let c := (c.span fun x => x == ' ' || (x == '\t' && (s.inFlow || !s.keyAllowed))).2
    let c := if c.sees 0 '#' then skipComments (c.rest.length + 1) c else c
    if c.atBreak then
      skipGap fuel { s with cursor := c.takeBreak.2, keyAllowed := s.keyAllowed || !s.inFlow }
    else { s with cursor := c }

/-- Passes over a comment on the line of the last token. -/
def skipLineComment (s : Scan) : Scan :=
  let c := s.cursor.skipBlanks
  if c.sees 0 '#' then { s with cursor := c.skipToLineEnd } else s

/-! ## Scalars -/

/-- Line breaks and blanks between the words of a scalar that goes over lines: one break is a
space, more are kept without the first, and a separator is always kept. -/
def foldBreaks (first more : List Char) : List Char :=
  if first.head? == some '\n' then if more.isEmpty then [' '] else more else first ++ more

/-- Blanks and line breaks inside a scalar: the blanks of the line, or the first break and those
after it. Fails at a tab left of the column `least` that starts a line. -/
def scalarGap (least : Int) : Nat → Cursor → List Char → Option (List Char × List Char) →
    Option (List Char × Option (List Char × List Char) × Cursor)
  | 0, c, blanks, breaks => some (blanks, breaks, c)
  | fuel + 1, c, blanks, breaks =>
    match c.peek 0, breaks with
    | some x, none =>
      if isBlank x then scalarGap least fuel (c.skip 1) (blanks ++ [x]) none
      else if isBreak x then scalarGap least fuel c.takeBreak.2 [] (some (c.takeBreak.1, []))
      else some (blanks, none, c)
    | some x, some (first, more) =>
      if isBlank x then
        if x == '\t' && (c.column : Int) < least then none
        else scalarGap least fuel (c.skip 1) blanks breaks
      else if isBreak x then
        scalarGap least fuel c.takeBreak.2 blanks (some (first, more ++ c.takeBreak.1))
      else some (blanks, breaks, c)
    | none, _ => some (blanks, breaks, c)

/-- A plain scalar ends before this character. -/
def endsPlain (inFlow : Bool) (x : Char) (rest : List Char) : Bool :=
  (x == ':' && rest.head?.all fun y => isBlank y || isBreak y) ||
    (inFlow && [',', '?', '[', ']', '{', '}'].contains x)

/-- The characters of a word of a plain scalar. -/
def plainWord (inFlow : Bool) : List Char → List Char
  | [] => []
  | x :: rest =>
    if isBlank x || isBreak x || endsPlain inFlow x rest then []
    else x :: plainWord inFlow rest

/-- A plain scalar: its text, the place after it and the gap behind it, and whether a line break
belongs to that gap. `gap` is what stands between the text so far and the cursor. -/
def plainFrom (inFlow : Bool) (indent : Int) : Nat → Cursor → List Char → List Char → Bool →
    Option (List Char × Cursor × Bool)
  | 0, c, text, _, broke => some (text, c, broke)
  | fuel + 1, c, text, gap, broke =>
    if c.atDocumentMark || c.sees 0 '#' then some (text, c, broke)
    else
      let word := plainWord inFlow c.rest
      let after := c.skip word.length
      let text' := if word.isEmpty then text else text ++ gap ++ word
      let broke' := broke && word.isEmpty
      if !(after.atBlank || after.atBreak) then some (text', after, broke')
      else
        match scalarGap (indent + 1) (after.rest.length + 1) after [] none with
        | none => none
        | some (blanks, breaks, next) =>
          let gap := match breaks with
            | some (first, more) => foldBreaks first more
            | none => blanks
          if !inFlow && (next.column : Int) < indent + 1 then some (text', next, breaks.isSome)
          else plainFrom inFlow indent fuel next text' gap breaks.isSome

/-- The characters that a letter after a backslash stands for. -/
def escaped (x : Char) : Option Char :=
  match x with
  | '0' => some '\x00'
  | 'a' => some '\x07'
  | 'b' => some '\x08'
  | 't' => some '\t'
  | '\t' => some '\t'
  | 'n' => some '\n'
  | 'v' => some '\x0b'
  | 'f' => some '\x0c'
  | 'r' => some '\r'
  | 'e' => some '\x1b'
  | ' ' => some ' '
  | '"' => some '"'
  | '\'' => some '\''
  | '\\' => some '\\'
  | 'N' => some '\u0085'
  | '_' => some '\u00a0'
  | 'L' => some '\u2028'
  | 'P' => some '\u2029'
  | _ => none

/-- The number of hexadecimal digits that a letter after a backslash announces. -/
def escapeDigits (x : Char) : Option Nat :=
  match x with
  | 'x' => some 2
  | 'u' => some 4
  | 'U' => some 8
  | _ => none

/-- The character at a backslash, and the place after it. -/
def takeEscape (c : Cursor) : Option (Char × Cursor) := do
  let x ← c.peek 1
  match escapeDigits x with
  | some n =>
    let ds := (c.rest.drop 2).take n
    let v ← Text.toNat? 16 (textOf ds)
    if ds.length == n && v.isValidChar then some (Char.ofNat v, c.skip (2 + n)) else none
  | none => do return (← escaped x, c.skip 2)

/-- The characters up to a gap or the closing quote, the place after them, and whether a backslash
at the end of a line stands before it. -/
def quotedWord (single : Bool) : Nat → Cursor → List Char → Option (List Char × Cursor × Bool)
  | 0, c, acc => some (acc, c, false)
  | fuel + 1, c, acc =>
    match c.peek 0 with
    | none => some (acc, c, false)
    | some x =>
      if isBlank x || isBreak x then some (acc, c, false)
      else if single then
        if x == '\'' then
          if c.sees 1 '\'' then quotedWord single fuel (c.skip 2) (acc ++ ['\''])
          else some (acc, c, false)
        else quotedWord single fuel (c.skip 1) (acc ++ [x])
      else if x == '"' then some (acc, c, false)
      else if x == '\\' then
        if (c.peek 1).any isBreak then some (acc, (c.skip 1).takeBreak.2, true)
        else
          match takeEscape c with
          | some (y, c) => quotedWord single fuel c (acc ++ [y])
          | none => none
      else quotedWord single fuel (c.skip 1) (acc ++ [x])

/-- A quoted scalar after its opening quote: its text and the place after the closing quote. -/
def quotedFrom (single : Bool) : Nat → Cursor → List Char → Option (List Char × Cursor)
  | 0, _, _ => none
  | fuel + 1, c, text =>
    if c.atDocumentMark || c.atEnd then none
    else
      match quotedWord single (c.rest.length + 1) c [] with
      | none => none
      | some (word, c, joined) =>
        let text := text ++ word
        if c.sees 0 (if single then '\'' else '"') then some (text, c.skip 1)
        else
          match scalarGap 0 (c.rest.length + 1) c [] (if joined then some ([], []) else none) with
          | none => none
          | some (blanks, breaks, next) =>
            let gap := match breaks with
              | some (first, more) => foldBreaks first more
              | none => blanks
            quotedFrom single fuel next (text ++ gap)

/-- Empty lines of a block scalar and the spaces before the next line: the breaks, the deepest
column met, and the place. With no indentation known yet all spaces are passed over. -/
def blockGap (indent : Nat) : Nat → Cursor → List Char → Nat → Option (List Char × Nat × Cursor)
  | 0, c, breaks, deepest => some (breaks, deepest, c)
  | fuel + 1, c, breaks, deepest =>
    let spaces := (c.rest.takeWhile (· == ' ')).length
    let c := c.skip (if indent == 0 then spaces else min spaces (indent - c.column))
    let deepest := max deepest c.column
    if (indent == 0 || c.column < indent) && c.sees 0 '\t' then none
    else if c.atBreak then
      blockGap indent fuel c.takeBreak.2 (breaks ++ c.takeBreak.1) deepest
    else some (breaks, deepest, c)

/-- The lines of a block scalar: its text without the last breaks, the break of the last line, the
breaks after it, and the place. -/
def blockLines (literal : Bool) (indent : Nat) : Nat → Cursor → List Char → List Char → List Char →
    Bool → Option (List Char × List Char × List Char × Cursor)
  | 0, c, text, lead, more, _ => some (text, lead, more, c)
  | fuel + 1, c, text, lead, more, blankBefore =>
    if c.column != indent || c.atEnd then some (text, lead, more, c)
    else
      let blankHere := c.atBlank
      let joins := !literal && !blankBefore && !blankHere && lead.head? == some '\n'
      let text := text ++ (if joins then if more.isEmpty then [' '] else [] else lead) ++ more
      let (line, e) := c.span fun x => !isBreak x
      let (brk, next) := e.takeBreak
      match blockGap indent (next.rest.length + 1) next [] 0 with
      | none => none
      | some (breaks, _, next) =>
        blockLines literal indent fuel next (text ++ line) brk breaks blankHere

/-- What to do with the line breaks at the end of a block scalar. -/
inductive Chomp where
  | strip
  | clip
  | keep
deriving DecidableEq

/-- The chomping sign at the cursor. -/
def chompSign (c : Cursor) : Option Chomp :=
  if c.sees 0 '+' then some .keep else if c.sees 0 '-' then some .strip else none

/-- The indentation digit at the cursor. -/
def indentDigit (c : Cursor) : Option Nat :=
  (c.peek 0).bind fun x => if x.isDigit then some (x.toNat - '0'.toNat) else none

/-- The signs after the mark of a block scalar, in either order; an indentation of zero fails. -/
def blockSigns (c : Cursor) : Option (Chomp × Option Nat × Cursor) :=
  let digit := fun (c : Cursor) =>
    match indentDigit c with
    | some 0 => none
    | some d => some (some d, c.skip 1)
    | none => some (none, c)
  match chompSign c with
  | some chomp => do
    let (d, c) ← digit (c.skip 1)
    return (chomp, d, c)
  | none => do
    let (d, c) ← digit c
    match if d.isSome then chompSign c else none with
    | some chomp => return (chomp, d, c.skip 1)
    | none => return (.clip, d, c)

/-- A block scalar at its mark: its text and the place after it. -/
def takeBlockScalar (literal : Bool) (blockIndent : Int) (c : Cursor) :
    Option (List Char × Cursor) := do
  let (chomp, digit, c) ← blockSigns (c.skip 1)
  let c := c.skipBlanks
  let c := if c.sees 0 '#' then c.skipToLineEnd else c
  if !c.atLineEnd then none
  let c := c.takeBreak.2
  let given := match digit with
    | some d => (max blockIndent 0).toNat + d
    | none => 0
  let (breaks, deepest, c) ← blockGap given (c.rest.length + 1) c [] 0
  let indent := if given == 0 then max (max deepest (blockIndent + 1).toNat) 1 else given
  let (text, last, more, c) ← blockLines literal indent (c.rest.length + 1) c [] [] breaks false
  let text := if chomp == .strip then text else text ++ last
  return (if chomp == .keep then text ++ more else text, c)

/-! ## Tags and directives -/

/-- Characters that may stand in a tag. -/
def isTagChar (x : Char) : Bool :=
  isWord x || [';', '/', '?', ':', '@', '&', '=', '+', '$', '.', ',', '!', '~', '*', '\'', '(', ')',
    '[', ']'].contains x

/-- The characters of a tag, with percent escapes as bytes. -/
def tagText : Nat → Cursor → Text → Option (Text × Cursor)
  | 0, c, acc => some (acc, c)
  | fuel + 1, c, acc =>
    match c.peek 0 with
    | some '%' => do
      let ds := (c.rest.drop 1).take 2
      let v ← Text.toNat? 16 (textOf ds)
      if ds.length == 2 then tagText fuel (c.skip 3) (acc ++ [UInt8.ofNat v]) else none
    | some x => if isTagChar x then tagText fuel (c.skip 1) (acc ++ textOf [x]) else some (acc, c)
    | none => some (acc, c)

/-- A handle: an exclamation mark, a word, and another mark if there is one. -/
def tagHandle (c : Cursor) : Option (Text × Cursor) :=
  if !c.sees 0 '!' then none
  else
    let (word, e) := (c.skip 1).span isWord
    if e.sees 0 '!' then some (textOf ('!' :: word ++ ['!']), e.skip 1)
    else some (textOf ('!' :: word), e)

/-- The tag at an exclamation mark. -/
def takeTag (c : Cursor) : Option (Token × Cursor) := do
  let fuel := c.rest.length + 1
  let (t, e) ←
    if c.sees 1 '<' then do
      let (suffix, e) ← tagText fuel (c.skip 2) []
      if suffix.isEmpty || !e.sees 0 '>' then none
      some (Token.tag [] suffix, e.skip 1)
    else do
      let (handle, e) ← tagHandle c
      if 1 < handle.length && handle.getLast? == some 0x21 then
        let (suffix, e) ← tagText fuel e []
        if suffix.isEmpty then none
        some (Token.tag handle suffix, e)
      else
        let (suffix, e) ← tagText fuel e (handle.drop 1)
        some (if suffix.isEmpty then Token.tag [] "!" else Token.tag "!" suffix, e)
  if e.gapAt 0 then some (t, e) else none

/-- A number of at most nine digits. -/
def takeNumber (c : Cursor) : Option (Nat × Cursor) :=
  let (ds, e) := c.span Char.isDigit
  if ds.length ≤ 9 then (Text.toNat? 10 (textOf ds)).map fun n => (n, e) else none

/-- The directive at a percent sign, with its line. -/
def takeDirective (c : Cursor) : Option (Token × Cursor) := do
  let (name, e) := (c.skip 1).span isWord
  if !e.gapAt 0 then none
  let (t, e) ←
    if name == "YAML".toList then do
      let (major, e) ← takeNumber e.skipBlanks
      if !e.sees 0 '.' then none
      let (minor, e) ← takeNumber (e.skip 1)
      some (Token.version major minor, e)
    else if name == "TAG".toList then do
      let (handle, e) ← tagHandle e.skipBlanks
      if handle != utf8 "!" && (handle.length == 1 || handle.getLast? != some 0x21) then none
      if !e.atBlank then none
      let (lead, e) ← tagText (e.rest.length + 1) e.skipBlanks []
      if lead.isEmpty || !e.gapAt 0 then none
      some (Token.tagAlias handle lead, e)
    else none
  let e := e.skipBlanks
  let e := if e.sees 0 '#' then e.skipToLineEnd else e
  if e.atLineEnd then some (t, e.takeBreak.2) else none

/-- The name after an ampersand or a star, and the place after it. -/
def takeName (c : Cursor) : Option (Text × Cursor) :=
  let (name, e) := (c.skip 1).span isWord
  let ends := e.gapAt 0 || (e.peek 0).any fun x => ['?', ':', ',', ']', '}', '%', '@', '`'].contains x
  if !name.isEmpty && ends then some (textOf name, e) else none

/-! ## The next token -/

/-- The token at a colon. If a key may stand before it, it is one; else the key is empty or was
announced before. -/
def takeColon (s : Scan) : Option Scan := do
  match ← s.keyHere with
  | some k =>
    let s := (s.insert k.number .key).openBlock k.column k.number .mappingBlock
    return { s.take 1 .value with keys := none :: s.keys.drop 1, keyAllowed := false }
  | none =>
    if !s.inFlow && !s.keyAllowed then none
    let s := s.openBlock s.cursor.column s.tokens.size .mappingBlock
    return { s.take 1 .value with keyAllowed := !s.inFlow, keys := none :: s.keys.drop 1 }

/-- A scalar, name or tag: a key may start with it, but none may follow it. -/
def takeContent (s : Scan) (t : Token) (after : Cursor) : Option Scan := do
  let s ← s.noteKey
  return { s.push t with cursor := after, keyAllowed := false }

/-- Characters with which no plain scalar starts. -/
def isIndicator (x : Char) : Bool :=
  ['-', '?', ':', ',', '[', ']', '{', '}', '#', '&', '*', '!', '|', '>', '\'', '"', '%', '@',
    '`'].contains x

/-- A plain scalar starts with a character. -/
def startsPlain (s : Scan) (x : Char) : Bool :=
  !(isBlank x || isIndicator x) ||
    (x == '-' && !((s.cursor.peek 1).any isBlank)) ||
    (!s.inFlow && (x == '?' || x == ':') && !s.cursor.gapAt 1)

/-- The token at a character, when it is no document mark and no directive. -/
def takeToken (s : Scan) (x : Char) : Option Scan := do
  let c := s.cursor
  let fuel := c.rest.length + 1
  if x == '[' || x == '{' then
    let s ← s.noteKey
    return skipLineComment { s.take 1 (if x == '[' then .sequenceOpen else .mappingOpen) with
      keys := none :: s.keys, keyAllowed := true }
  else if x == ']' || x == '}' then
    let s ← s.dropKey
    return skipLineComment { s.take 1 (if x == ']' then .sequenceClose else .mappingClose) with
      keys := if s.inFlow then s.keys.drop 1 else s.keys, keyAllowed := false }
  else if x == ',' then
    let s ← s.dropKey
    return skipLineComment { s.take 1 .comma with keyAllowed := true }
  else if x == '-' && c.gapAt 1 then
    if !s.inFlow && !s.keyAllowed then none
    let s ← (s.openBlock c.column s.tokens.size .sequenceBlock).dropKey
    return { s.take 1 .dash with keyAllowed := true }
  else if x == '?' && (s.inFlow || c.gapAt 1) then
    if !s.inFlow && !s.keyAllowed then none
    let s ← (s.openBlock c.column s.tokens.size .mappingBlock).dropKey
    return skipLineComment { s.take 1 .key with keyAllowed := !s.inFlow }
  else if x == ':' && (s.inFlow || c.gapAt 1) then
    return skipLineComment (← s.takeColon)
  else if x == '*' then
    let (name, e) ← takeName c
    return skipLineComment (← s.takeContent (.alias name) e)
  else if x == '&' then
    let (name, e) ← takeName c
    return skipLineComment (← s.takeContent (.anchor name) e)
  else if x == '!' then
    let (t, e) ← takeTag c
    return skipLineComment (← s.takeContent t e)
  else if (x == '|' || x == '>') && !s.inFlow then
    let s ← s.dropKey
    let (text, e) ← takeBlockScalar (x == '|') s.indent c
    let style := if x == '|' then Style.literal else Style.folded
    return { s.push (.scalar style (textOf text)) with cursor := e, keyAllowed := true }
  else if x == '\'' || x == '"' then
    let (text, e) ← quotedFrom (x == '\'') fuel (c.skip 1) []
    let style := if x == '\'' then Style.singleQuoted else Style.doubleQuoted
    return skipLineComment (← s.takeContent (.scalar style (textOf text)) e)
  else if s.startsPlain x then
    let (text, e, broke) ← plainFrom s.inFlow s.indent fuel c [] [] false
    let s ← s.takeContent (.scalar .plain (textOf text)) e
    return if broke then { s with keyAllowed := true } else skipLineComment s
  else none

/-- Ends all blocks and the possible key before a token that stands outside of them. -/
def leaveBlocks (s : Scan) : Option Scan := do
  let s ← (s.unroll (-1)).dropKey
  return { s with keyAllowed := false }

/-- Reads the next token. -/
def next (s : Scan) : Option Scan := do
  let s := skipGap (s.cursor.rest.length + 1) s
  let s := s.unroll s.cursor.column
  let c := s.cursor
  if c.isCut 4 then none
  match c.peek 0 with
  | none =>
    let s ← s.leaveBlocks
    return { s.push .streamEnd with ended := true }
  | some x =>
    if c.column == 0 && x == '%' then
      let s ← s.leaveBlocks
      let (t, e) ← takeDirective c
      return { s.push t with cursor := e }
    else if c.atMark '-' then return (← s.leaveBlocks).take 3 .documentStart
    else if c.atMark '.' then return (← s.leaveBlocks).take 3 .documentEnd
    else s.takeToken x

/-- What comes next cannot be read: it is where the readable characters of a cut document end. -/
def lost (s : Scan) (cut : Bool) : Bool :=
  cut && (s.cursor.atEnd || s.cursor.skipBlanks.isCut 1)

/-- The greatest number of brackets or of blocks inside each other. -/
def depthLimit : Nat := 10000

/-- There are too many brackets or blocks inside each other. -/
def isTooDeep (s : Scan) : Bool := depthLimit + 1 < s.keys.length || depthLimit < s.indents.length

/-- Reads tokens to the end. `cut` tells that some characters cannot be read. -/
def run (cut : Bool) : Nat → Scan → Array Token
  | 0, s => s.tokens.push .broken
  | fuel + 1, s =>
    if s.ended then s.tokens
    else
      match s.next with
      | some t => if t.lost cut || t.isTooDeep then s.tokens.push .broken else run cut fuel t
      | none => s.tokens.push .broken

end Scan

/-- The tokens of a document. -/
def tokens (cs : List Char) : List Token :=
  (Scan.run (cs.getLast? == some unreadable) (2 * cs.length + 2) (.start cs)).toList

end CaseCover.Yaml
