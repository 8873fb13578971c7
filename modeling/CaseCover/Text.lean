/-!
# Text

Everything the program reads and prints is a sequence of bytes: sources, file names, constant
strings and messages may hold any bytes at all, so text is a list of bytes and not a `String`.

A text is also seen as a sequence of characters (`Text.characters`). A byte that starts no valid
UTF-8 sequence counts as one character of its own, with the replacement code point. Nothing is
lost by the view: joining the bytes of the characters gives the text back
(`flatMap_bytes_characters`).
-/

-- Powers are the built-in ones everywhere, also where a monoid has powers of its own.
attribute [instance (1100), default_instance (20000)] instPowNat

namespace CaseCover

/-- A sequence of bytes. -/
abbrev Text := List UInt8

/-- The UTF-8 bytes of a string. -/
def utf8 (s : String) : Text := s.toList.flatMap String.utf8EncodeChar

instance : Coe String Text := ⟨utf8⟩

namespace Text

/-- One character of a text: its code point and the bytes it stands on. -/
structure Character where
  code : Nat
  bytes : Text
deriving DecidableEq, Repr

/-- The code point shown for a byte that belongs to no valid sequence. -/
def replacement : Nat := 0xFFFD

/-- Bytes that continue a multi-byte sequence. -/
def isTail (b : UInt8) : Bool := 0x80 ≤ b && b ≤ 0xBF

/-- The six low bits of a continuation byte. -/
def tailBits (b : UInt8) : Nat := b.toNat % 64

/-- The least and greatest second byte that may follow a leading byte. The bounds exclude overlong
forms, surrogates and code points above U+10FFFF. -/
def secondBounds (b : UInt8) : UInt8 × UInt8 :=
  if b = 0xE0 then (0xA0, 0xBF)
  else if b = 0xED then (0x80, 0x9F)
  else if b = 0xF0 then (0x90, 0xBF)
  else if b = 0xF4 then (0x80, 0x8F)
  else (0x80, 0xBF)

/-- The character that starts with byte `b` when `rest` follows it. -/
def leading (b : UInt8) (rest : Text) : Character :=
  let invalid : Character := ⟨replacement, [b]⟩
  let second := fun (c : UInt8) => (secondBounds b).1 ≤ c && c ≤ (secondBounds b).2
  if b < 0x80 then ⟨b.toNat, [b]⟩
  else if 0xC2 ≤ b ∧ b ≤ 0xDF then
    match rest with
    | c :: _ => if second c then ⟨(b.toNat % 32) * 64 + tailBits c, [b, c]⟩ else invalid
    | [] => invalid
  else if 0xE0 ≤ b ∧ b ≤ 0xEF then
    match rest with
    | c :: d :: _ =>
      if second c && isTail d then
        ⟨((b.toNat % 16) * 64 + tailBits c) * 64 + tailBits d, [b, c, d]⟩
      else invalid
    | _ => invalid
  else if 0xF0 ≤ b ∧ b ≤ 0xF4 then
    match rest with
    | c :: d :: e :: _ =>
      if second c && isTail d && isTail e then
        ⟨(((b.toNat % 8) * 64 + tailBits c) * 64 + tailBits d) * 64 + tailBits e, [b, c, d, e]⟩
      else invalid
    | _ => invalid
  else invalid

/-- The characters of a text after its first `skip` bytes. -/
def charactersFrom : Nat → Text → List Character
  | _, [] => []
  | k + 1, _ :: rest => charactersFrom k rest
  | 0, b :: rest =>
    let c := leading b rest
    c :: charactersFrom (c.bytes.length - 1) rest

/-- The characters of a text, in order. -/
def characters (t : Text) : List Character := charactersFrom 0 t

/-- The code points of a text. -/
def codes (t : Text) : List Nat := (characters t).map (·.code)

/-- The text made of the bytes of the given characters. -/
def ofCharacters (cs : List Character) : Text := cs.flatMap (·.bytes)

/-- The UTF-8 bytes of a code point; a number that is no code point gives U+FFFD. -/
def ofCode (n : Nat) : Text :=
  if n.isValidChar then String.utf8EncodeChar (Char.ofNat n)
  else String.utf8EncodeChar (Char.ofNat replacement)

/-- A text is valid UTF-8 when no byte had to be replaced. -/
def isValid (t : Text) : Bool :=
  (characters t).all fun c => c.code ≠ replacement || c.bytes.length == 3

/-- The string of a text, with U+FFFD in place of invalid bytes. -/
def toStringLossy (t : Text) : String := String.ofList ((codes t).map Char.ofNat)

/-! ## Characters and bytes -/

theorem leading_bytes (b : UInt8) (rest : Text) :
    ∃ tail, (leading b rest).bytes = b :: tail ∧ tail <+: rest := by
  unfold leading
  dsimp only
  split
  · exact ⟨[], rfl, List.nil_prefix⟩
  split
  · split
    · split
      · exact ⟨[_], rfl, by simp⟩
      · exact ⟨[], rfl, List.nil_prefix⟩
    · exact ⟨[], rfl, List.nil_prefix⟩
  split
  · split
    · split
      · exact ⟨[_, _], rfl, by simp⟩
      · exact ⟨[], rfl, List.nil_prefix⟩
    · exact ⟨[], rfl, List.nil_prefix⟩
  split
  · split
    · split
      · exact ⟨[_, _, _], rfl, by simp⟩
      · exact ⟨[], rfl, List.nil_prefix⟩
    · exact ⟨[], rfl, List.nil_prefix⟩
  · exact ⟨[], rfl, List.nil_prefix⟩

theorem charactersFrom_eq_drop (k : Nat) (t : Text) :
    charactersFrom k t = charactersFrom 0 (t.drop k) := by
  induction t generalizing k with
  | nil => cases k <;> simp [charactersFrom]
  | cons b rest ih =>
    cases k with
    | zero => simp
    | succ k => simpa [charactersFrom] using ih k

theorem flatMap_bytes_charactersFrom (t : Text) (k : Nat) :
    (charactersFrom k t).flatMap (·.bytes) = t.drop k := by
  induction t generalizing k with
  | nil => simp [charactersFrom]
  | cons b rest ih =>
    cases k with
    | succ k => simpa [charactersFrom] using ih k
    | zero =>
      obtain ⟨tail, hb, ht⟩ := leading_bytes b rest
      obtain ⟨more, rfl⟩ := ht
      simp [charactersFrom, hb, ih]

/-- The view by characters loses nothing. -/
theorem flatMap_bytes_characters (t : Text) : (characters t).flatMap (·.bytes) = t := by
  simpa [characters] using flatMap_bytes_charactersFrom t 0

/-! ## Cutting and joining -/

/-- The pieces of `t` between the occurrences of `sep`, found from the left without overlap.
`piece` holds the bytes of the open piece, last byte first, and `skip` counts the bytes of a
separator still to be passed over. -/
def splitFrom (sep : Text) : Nat → Text → Text → List Text
  | _, piece, [] => [piece.reverse]
  | k + 1, piece, _ :: rest => splitFrom sep k piece rest
  | 0, piece, b :: rest =>
    if sep.isPrefixOf (b :: rest) then piece.reverse :: splitFrom sep (sep.length - 1) [] rest
    else splitFrom sep 0 (b :: piece) rest

/-- Cuts a text at every occurrence of the (non-empty) separator. -/
def splitOn (sep t : Text) : List Text := splitFrom sep 0 [] t

theorem splitFrom_singleton (sep : UInt8) (piece t : Text) :
    splitFrom [sep] 0 piece t = t.splitOnPPrepend (· == sep) piece := by
  induction t generalizing piece with
  | nil => rw [splitFrom, List.splitOnPPrepend_nil]
  | cons b t ih =>
    have hsep : [sep].isPrefixOf (b :: t) = (b == sep) := by
      simp [List.isPrefixOf, BEq.comm]
    rw [splitFrom, List.splitOnPPrepend_cons_eq_if, hsep]
    split
    · rw [← List.splitOnPPrepend_nil_right, ← ih]
      rfl
    · exact ih (b :: piece)

/-- A separator of one byte cuts a text as a list of bytes. -/
theorem splitOn_singleton (sep : UInt8) (t : Text) : splitOn [sep] t = List.splitOn sep t :=
  splitFrom_singleton sep [] t

/-- The pieces of a text do not hold the separator. -/
theorem not_mem_of_mem_splitOn {sep : UInt8} {p c : Text} (hc : c ∈ List.splitOn sep p) :
    sep ∉ c := by
  induction p generalizing c with
  | nil =>
    rw [List.splitOn_nil, List.mem_singleton] at hc
    rw [hc]
    exact List.not_mem_nil
  | cons b p ih =>
    rw [List.splitOn_cons_eq_if_modifyHead] at hc
    split at hc
    · rcases List.mem_cons.mp hc with rfl | hc
      · exact List.not_mem_nil
      · exact ih hc
    · next hb =>
      cases hp : List.splitOn sep p with
      | nil => exact absurd hp (List.splitOn_ne_nil sep p)
      | cons d ds =>
        rw [hp, List.modifyHead_cons] at hc
        rcases List.mem_cons.mp hc with rfl | hc
        · have hd := ih (c := d) (by rw [hp]; exact List.mem_cons_self)
          rw [List.mem_cons, not_or]
          exact ⟨fun h => hb (by simp [h]), hd⟩
        · exact ih (by rw [hp]; exact List.mem_cons_of_mem d hc)

/-- Joins texts with a separator between them. -/
def join (sep : Text) : List Text → Text
  | [] => []
  | [t] => t
  | t :: u :: rest => t ++ sep ++ join sep (u :: rest)

theorem join_eq_intercalate (sep : Text) (ts : List Text) : join sep ts = sep.intercalate ts := by
  induction ts with
  | nil => rfl
  | cons t ts ih =>
    cases ts with
    | nil => simp [join]
    | cons u ts => rw [join, ih]; simp

/-- `t` without `lead` in front, if it starts with it. -/
def stripLead? (lead t : Text) : Option Text :=
  if lead.isPrefixOf t then some (t.drop lead.length) else none

theorem stripLead?_eq_some_iff {lead t rest : Text} :
    stripLead? lead t = some rest ↔ t = lead ++ rest := by
  unfold stripLead?
  constructor
  · intro h
    split at h
    · next hlead =>
      obtain ⟨rest', rfl⟩ := List.isPrefixOf_iff_prefix.mp hlead
      rw [List.drop_left] at h
      cases h
      rfl
    · cases h
  · rintro rfl
    rw [if_pos (List.isPrefixOf_iff_prefix.mpr (List.prefix_append lead rest)), List.drop_left]

/-- `t` without `tail` at its end, if it ends with it. -/
def stripTail? (tail t : Text) : Option Text :=
  if tail.isSuffixOf t then some (t.take (t.length - tail.length)) else none

/-- A text starts with another. -/
def startsWith (t lead : Text) : Bool := lead.isPrefixOf t

/-- A text ends with another. -/
def endsWith (t tail : Text) : Bool := tail.isSuffixOf t

/-- A text holds another one somewhere. -/
def containsText (part : Text) : Text → Bool
  | [] => part.isEmpty
  | b :: rest => part.isPrefixOf (b :: rest) || containsText part rest

/-- What stands before the first occurrence of `part` in a text, and what stands after it. -/
def cutAt? (part : Text) : Text → Option (Text × Text)
  | [] => if part.isEmpty then some ([], []) else none
  | b :: rest =>
    if part.isPrefixOf (b :: rest) then some ([], (b :: rest).drop part.length)
    else (cutAt? part rest).map fun (front, back) => (b :: front, back)

/-- `n` copies of one byte. -/
def repeated (n : Nat) (b : UInt8) : Text := List.replicate n b

/-! ## Order -/

/-- Byte-wise lexicographic order, a proper start of a text coming before it. -/
def less : Text → Text → Bool
  | _, [] => false
  | [], _ :: _ => true
  | a :: s, b :: t => a < b || (a == b && less s t)

/-- Byte-wise order, equality included. -/
def lessEq (s t : Text) : Bool := !less t s

/-- Sorts texts by their bytes. -/
def sort (ts : List Text) : List Text := ts.mergeSort lessEq

/-! ## Numbers -/

/-- Decimal digits of a natural number. -/
def ofNat (n : Nat) : Text := utf8 (toString n)

/-- Decimal digits of an integer, with a leading minus sign when it is negative. -/
def ofInt : Int → Text
  | .ofNat n => ofNat n
  | .negSucc n => 0x2D :: ofNat (n + 1)

/-- ASCII decimal digits. -/
def isDigit (b : UInt8) : Bool := 0x30 ≤ b && b ≤ 0x39

/-- The value of a digit in a base up to 36. -/
def digitValue (b : UInt8) : Option Nat :=
  if isDigit b then some (b.toNat - 0x30)
  else if 0x61 ≤ b && b ≤ 0x7A then some (b.toNat - 0x61 + 10)
  else if 0x41 ≤ b && b ≤ 0x5A then some (b.toNat - 0x41 + 10)
  else none

/-- The number a run of digits denotes in the given base; none for an empty run or a byte that is
no digit of the base. -/
def toNat? (base : Nat) (t : Text) : Option Nat :=
  if t.isEmpty then none
  else t.foldl (fun acc b => do
    let n ← acc
    let d ← digitValue b
    if d < base then some (n * base + d) else none) (some 0)

/-- The lower-case hexadecimal digit of a number below sixteen. -/
def hexDigit (n : Nat) : UInt8 := UInt8.ofNat (if n < 10 then 0x30 + n else 0x57 + n)

/-- Two lower-case hexadecimal digits per byte. -/
def hex (t : Text) : Text := t.flatMap fun b => [hexDigit (b.toNat / 16), hexDigit (b.toNat % 16)]

/-- The `width` lowest hexadecimal digits of a number. -/
def hexNat (width n : Nat) : Text :=
  (List.range width).reverse.map fun i => hexDigit (n / 16 ^ i % 16)

/-- Maps the ASCII letters to lower case. -/
def lowerAscii (t : Text) : Text := t.map fun b => if 0x41 ≤ b && b ≤ 0x5A then b + 32 else b

end Text

end CaseCover
