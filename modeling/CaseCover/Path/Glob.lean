import CaseCover.Path

/-!
# Glob patterns

`*` stands for any run of bytes without a separator, `?` for one character that is no separator,
`[a-z]` and `[^a-z]` for a character inside or outside of ranges, and a backslash takes the next
byte literally. A pattern is matched in chunks between stars; a malformed chunk is an error unless
the match succeeds without it.
-/

namespace CaseCover.Path

/-- A pattern is malformed. -/
inductive GlobError where
  | badPattern
deriving DecidableEq

/-- One piece of a chunk between stars. -/
inductive GlobPiece where
  | byte (b : UInt8)
  | any
  | oneOf (negated : Bool) (ranges : List (Nat × Nat))
deriving DecidableEq

/-- The stars in front of a pattern, the chunk up to the next star outside of brackets, and the
rest. -/
def globChunk (pattern : Text) : Bool × Text × Text :=
  let body := pattern.dropWhile (· == 0x2A)
  let rec cut : Bool → Text → Text × Text
    | _, [] => ([], [])
    | inRange, 0x5C :: b :: rest =>
      let (c, r) := cut inRange rest
      (0x5C :: b :: c, r)
    | inRange, b :: rest =>
      if b == 0x2A && !inRange then ([], b :: rest)
      else
        let inRange := if b == 0x5B then true else if b == 0x5D then false else inRange
        let (c, r) := cut inRange rest
        (b :: c, r)
  (pattern.head? == some 0x2A, cut false body)

/-- The next character of a class, possibly escaped, and the rest, which must not be empty. -/
def classCharacter (chunk : Text) : Option (Nat × Text) :=
  match chunk with
  | [] => none
  | b :: rest =>
    if b == 0x2D || b == 0x5D then none
    else
      let chunk := if b == 0x5C then rest else chunk
      match chunk with
      | [] => none
      | c :: more =>
        let ch := Text.leading c more
        let left := more.drop (ch.bytes.length - 1)
        if (ch.code == Text.replacement && ch.bytes.length == 1) || left.isEmpty then none
        else some (ch.code, left)

/-- The ranges of a class up to its closing bracket, and the rest. -/
def classRanges : Nat → List (Nat × Nat) → Text → Option (List (Nat × Nat) × Text)
  | 0, _, _ => none
  | fuel + 1, ranges, chunk =>
    if chunk.head? == some 0x5D && !ranges.isEmpty then some (ranges, chunk.drop 1)
    else do
      let (lo, rest) ← classCharacter chunk
      if rest.head? == some 0x2D then do
        let (hi, rest) ← classCharacter (rest.drop 1)
        classRanges fuel (ranges ++ [(lo, hi)]) rest
      else classRanges fuel (ranges ++ [(lo, lo)]) rest

/-- The pieces of a chunk; none when it is malformed. -/
def globPieces : Nat → Text → Option (List GlobPiece)
  | _, [] => some []
  | 0, _ :: _ => none
  | fuel + 1, b :: rest =>
    if b == 0x5B then do
      let negated := rest.head? == some 0x5E
      let (ranges, rest) ← classRanges (rest.length + 1) [] (if negated then rest.drop 1 else rest)
      (globPieces fuel rest).map (.oneOf negated ranges :: ·)
    else if b == 0x3F then (globPieces fuel rest).map (.any :: ·)
    else if b == 0x5C then
      match rest with
      | [] => none
      | c :: rest => (globPieces fuel rest).map (.byte c :: ·)
    else (globPieces fuel rest).map (.byte b :: ·)

/-- Matches the pieces of a chunk at the start of a name and gives the rest of the name. -/
def matchPieces : List GlobPiece → Text → Option Text
  | [], name => some name
  | _ :: _, [] => none
  | piece :: pieces, b :: rest =>
    let ch := Text.leading b rest
    let after := rest.drop (ch.bytes.length - 1)
    match piece with
    | .byte c => if b == c then matchPieces pieces rest else none
    | .any => if b == separator then none else matchPieces pieces after
    | .oneOf negated ranges =>
      if (ranges.any fun r => r.1 ≤ ch.code && ch.code ≤ r.2) != negated then
        matchPieces pieces after
      else none

/-- Matches a chunk somewhere after the first byte of a name, without passing over a separator.
The last chunk of a pattern must reach the end of the name. -/
def matchLater (pieces : List GlobPiece) (isLast : Bool) : Text → Option Text
  | [] => none
  | b :: rest =>
    if b == separator then none
    else
      match matchPieces pieces rest with
      | some t => if isLast && !t.isEmpty then matchLater pieces isLast rest else some t
      | none => matchLater pieces isLast rest

/-- Matches a pattern chunk by chunk. -/
def globFrom : Nat → Text → Text → Except GlobError Bool
  | _, [], name => .ok name.isEmpty
  | 0, _ :: _, _ => .ok false
  | fuel + 1, pattern, name =>
    let (star, chunk, rest) := globChunk pattern
    if star && chunk.isEmpty then .ok (!name.contains separator)
    else
      match globPieces chunk.length chunk with
      | none => .error .badPattern
      | some pieces =>
        match matchPieces pieces name with
        | some t =>
          if t.isEmpty || !rest.isEmpty then globFrom fuel rest t
          else if star then
            match matchLater pieces rest.isEmpty name with
            | some t => globFrom fuel rest t
            | none => .ok false
          else .ok false
        | none =>
          if star then
            match matchLater pieces rest.isEmpty name with
            | some t => globFrom fuel rest t
            | none => .ok false
          else .ok false

/-- All chunks of a pattern are well-formed. -/
def isWellFormed : Nat → Text → Bool
  | _, [] => true
  | 0, _ :: _ => true
  | fuel + 1, pattern =>
    let (_, chunk, rest) := globChunk pattern
    (globPieces chunk.length chunk).isSome && isWellFormed fuel rest

/-- A name matches a pattern as a whole. -/
def glob (pattern name : Text) : Except GlobError Bool :=
  match globFrom pattern.length pattern name with
  | .ok false => if isWellFormed pattern.length pattern then .ok false else .error .badPattern
  | answer => answer

/-- The message for a malformed pattern. -/
def GlobError.message : GlobError → Text
  | .badPattern => "syntax error in pattern"

/-- A name matches a pattern; a malformed pattern matches nothing. -/
def globs (pattern name : Text) : Bool :=
  match glob pattern name with
  | .ok b => b
  | .error _ => false

/-- A pattern holds a byte with a special meaning. -/
def hasMeta (pattern : Text) : Bool :=
  pattern.any fun b => b == 0x2A || b == 0x3F || b == 0x5B || b == 0x5C

end CaseCover.Path
