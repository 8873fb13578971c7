import CaseCover.Source.Tree
import CaseCover.Text.Letter
import CaseCover.Text.Space

/-!
# Build constraints

A source file may say for which targets it is meant: by a `//go:build` line with an expression over
tags, or by older `// +build` lines. They count only before the first line that is neither blank nor
a comment; the older lines must also have a blank line after them.

The tag `go1.N` asks for a release of the language. An expression that cannot hold without such tags
implies a least release.
-/

namespace CaseCover

/-- A condition on the tags of a target. -/
inductive Constraint where
  | tag (name : Text)
  | not (x : Constraint)
  | and (x y : Constraint)
  | or (x y : Constraint)
deriving DecidableEq

namespace Constraint

/-- A condition holds for the tags that `holds` accepts. -/
def eval (holds : Text → Bool) : Constraint → Bool
  | .tag name => holds name
  | .not x => !x.eval holds
  | .and x y => x.eval holds && y.eval holds
  | .or x y => x.eval holds || y.eval holds

/-! ## Reading expressions -/

/-- A symbol of an expression. -/
inductive Symbol where
  | tag (name : Text)
  | not
  | and
  | or
  | opening
  | closing
deriving DecidableEq

/-- A character of a tag. -/
def isTagCode (c : Nat) : Bool :=
  Text.isLetterCode c || Text.isDigitCode c || c == 0x5F || c == 0x2E

/-- The symbols of an expression, if there are no others in it. -/
def symbols : Nat → List Text.Character → Option (List Symbol)
  | 0, _ => none
  | _ + 1, [] => some []
  | fuel + 1, c :: rest =>
    if c.code == 0x20 || c.code == 0x09 then symbols fuel rest
    else if c.code == 0x28 then (symbols fuel rest).map (.opening :: ·)
    else if c.code == 0x29 then (symbols fuel rest).map (.closing :: ·)
    else if c.code == 0x21 then (symbols fuel rest).map (.not :: ·)
    else if c.code == 0x26 || c.code == 0x7C then
      match rest with
      | d :: rest =>
        if d.code == c.code then
          (symbols fuel rest).map ((if c.code == 0x26 then .and else .or) :: ·)
        else none
      | [] => none
    else
      let name := (c :: rest).takeWhile fun c => isTagCode c.code
      if name.isEmpty then none
      else
        (symbols fuel ((c :: rest).drop name.length)).map (.tag (Text.ofCharacters name) :: ·)

/-- The kinds of expressions from loose to tight. -/
inductive Strength where
  | disjunction
  | conjunction
  | negation

/-- Reads an expression of a strength and gives what follows it. -/
def readFrom : Nat → Strength → List Symbol → Option (Constraint × List Symbol)
  | 0, _, _ => none
  | fuel + 1, .disjunction, ss => do
    let (x, ss) ← readFrom fuel .conjunction ss
    match ss with
    | .or :: ss =>
      let (y, ss) ← readFrom fuel .disjunction ss
      return (.or x y, ss)
    | ss => return (x, ss)
  | fuel + 1, .conjunction, ss => do
    let (x, ss) ← readFrom fuel .negation ss
    match ss with
    | .and :: ss =>
      let (y, ss) ← readFrom fuel .conjunction ss
      return (.and x y, ss)
    | ss => return (x, ss)
  | fuel + 1, .negation, ss =>
    match ss with
    | .not :: .not :: _ => none
    | .not :: ss => do
      let (x, ss) ← readFrom fuel .negation ss
      return (.not x, ss)
    | .tag name :: ss => some (.tag name, ss)
    | .opening :: ss => do
      let (x, ss) ← readFrom fuel .disjunction ss
      match ss with
      | .closing :: ss => return (x, ss)
      | _ => none
    | _ => none

/-- Reads an expression. -/
def parse (t : Text) : Option Constraint := do
  let cs := Text.characters t
  let ss ← symbols (cs.length + 1) cs
  match ← readFrom (3 * ss.length + 3) .disjunction ss with
  | (x, []) => return x
  | _ => none

/-! ## Older lines -/

/-- The tag that no target has. -/
def never : Constraint := .tag "ignore"

/-- One term of an older line. -/
def olderTerm (t : Text) : Constraint :=
  let valid := fun (t : Text) => !t.isEmpty && (Text.characters t).all fun c => isTagCode c.code
  if Text.startsWith t "!!" || t == utf8 "!" then never
  else
    let negated := Text.startsWith t "!"
    let name := if negated then t.drop 1 else t
    let x := if valid name then .tag name else never
    if negated then .not x else x

/-- The conjunction of conditions. -/
def all : List Constraint → Constraint
  | [] => never
  | [x] => x
  | x :: rest => .and x (all rest)

/-- The disjunction of conditions. -/
def any : List Constraint → Constraint
  | [] => never
  | [x] => x
  | x :: rest => .or x (any rest)

/-- Reads an older line: alternatives with blanks between them, each of terms with commas. -/
def parseOlder (t : Text) : Constraint :=
  any ((Text.words t).map fun clause => all ((Text.splitOn "," clause).map olderTerm))

/-! ## Lines of a file -/

/-- The text behind a marker that a blank or nothing follows. -/
def after? (marker line : Text) : Option Text := do
  let rest ← Text.stripLead? marker line
  if rest.isEmpty || (Text.trimLeft rest).length < rest.length then return Text.trim rest
  none

/-- The expression text of a `//go:build` line. -/
def buildLine? (line : Text) : Option Text := after? "//go:build" line

/-- The text of a `// +build` line. -/
def olderLine? (line : Text) : Option Text := do
  let rest ← Text.stripLead? "//" line
  after? "+build" (Text.trim rest)

/-- What the lines before the code of a file hold: those of `//go:build`, the comment lines before
the last blank line, and the comment lines after it. -/
structure Head where
  build : List Text
  settled : List Text
  pending : List Text

/-- What is left of a line after the block comments at its start; `none` means that the line ends in
such a comment. `inside` tells whether it starts in one. -/
def passComments : Nat → Bool → Text → Option Text
  | 0, _, _ => none
  | fuel + 1, true, line =>
    match line with
    | [] => none
    | _ :: rest =>
      if Text.startsWith line "*/" then passComments fuel false (Text.trimLeft (line.drop 2))
      else passComments fuel true rest
  | fuel + 1, false, line =>
    if Text.startsWith line "/*" then passComments fuel true (line.drop 2) else some line

/-- Collects lines up to the first code. `ended` tells that a line other than a blank or a `//`
comment has been met, `inside` that a block comment is open. -/
def headFrom (h : Head) (ended inside : Bool) : List Text → Head
  | [] => h
  | line :: rest =>
    let line := Text.trim line
    if line.isEmpty && !ended then
      headFrom { h with settled := h.settled ++ h.pending, pending := [] } ended inside rest
    else
      let isComment := Text.startsWith line "//"
      let build := if inside then none else buildLine? line
      let h := { h with
        build := h.build ++ build.toList
        pending := if ended then h.pending else h.pending ++ [line] }
      if !inside && isComment then headFrom h ended inside rest
      else
        match passComments (line.length + 2) inside line with
        | none => headFrom h true true rest
        | some left =>
          if left.isEmpty || Text.startsWith left "//" then headFrom h true false rest else h

/-- The constraint of a file: nothing if it has two `//go:build` lines or a malformed one. -/
def ofFile (content : Text) : Option (List Constraint) :=
  let body := if (utf8 "\uFEFF").isPrefixOf content then content.drop 3 else content
  let h := headFrom ⟨[], [], []⟩ false false (Text.splitOn "\n" body)
  match h.build with
  | [] => some ((h.settled.filterMap olderLine?).map parseOlder)
  | [line] => (parse line).map ([·])
  | _ => none

/-! ## Releases -/

/-- A release of the language, by its number after `1.`. -/
abbrev Release := Nat

/-- The release that a tag stands for. -/
def releaseOf? (tag : Text) : Option Release :=
  if tag == utf8 "go1" then some 0
  else do
    let (_, digits) ← Text.cutAt? "go1." tag
    let n ← Text.toNat? 10 digits
    if n < 2 ^ 63 then return n
    none

/-- The greater of two releases, where none is less than all. -/
def laterRelease (a b : Option Release) : Option Release :=
  match a, b with
  | some a, some b => some (max a b)
  | a, b => a.or b

/-- The lesser of two releases, where none is less than all. -/
def earlierRelease (a b : Option Release) : Option Release := do return min (← a) (← b)

/-- The least release that an expression implies, or its negation where not `holds`. -/
def leastRelease (holds : Bool) : Constraint → Option Release
  | .tag name => if holds then releaseOf? name else none
  | .not x => x.leastRelease !holds
  | .and x y =>
    (if holds then laterRelease else earlierRelease) (x.leastRelease holds) (y.leastRelease holds)
  | .or x y =>
    (if holds then earlierRelease else laterRelease) (x.leastRelease holds) (y.leastRelease holds)

end Constraint

/-- The least release of the language that the lines before the package clause ask for. -/
def SourceFile.leastRelease? (f : SourceFile) : Option Constraint.Release :=
  (f.comments.filter fun c => c.pos < f.package).foldl (fun found c =>
    match (Constraint.buildLine? c.text).bind Constraint.parse with
    | some x => x.leastRelease true
    | none => found) none

end CaseCover
