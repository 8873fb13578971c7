import CaseCover.Proofs.Text.CodePoints
import CaseCover.Severity

/-!
# Names of severities

A severity is read by comparing upper cases, so the letters of its name may be written large or small.
There is one more letter with an ASCII letter of the names as its upper case: the small `i` without a
dot. It may stand for an `I`, and nothing else may (`parse_eq_ok_iff`). Without it the text is the
name up to the case of ASCII letters (`lowerAscii_of_spells`).
-/

namespace CaseCover.Severity

open Text (Character characters)

/-- The small `i` without a dot, whose upper case is an `I`. -/
def dotlessI : Text := "\u0131"

/-- What may stand for a capital letter: itself, the small letter, or an `i` without a dot for an
`I`. -/
inductive IsForm (letter : UInt8) : Text → Prop
  | capital : IsForm letter [letter]
  | small : IsForm letter [letter + 32]
  | dotless (isI : letter = 0x49) : IsForm letter dotlessI

/-- A text spells a word of capital letters, up to the case of its letters. -/
inductive Spells : Text → Text → Prop
  | nil : Spells [] []
  | cons {letter : UInt8} {form word t : Text} (first : IsForm letter form) (rest : Spells word t) :
      Spells (letter :: word) (form ++ t)

/-- The letters of which the names of severities consist: capital ones, and no `S`, for which the
long `s` could stand. -/
def isNameLetter (b : UInt8) : Bool := 0x41 ≤ b && b ≤ 0x5A && b ≠ 0x53

variable {t word : Text} {letter : UInt8}

/-! ## Letters -/

theorem isNameLetter_bounds (h : isNameLetter letter = true) :
    65 ≤ letter.toNat ∧ letter.toNat ≤ 90 ∧ letter.toNat ≠ 83 := by
  simpa [isNameLetter, UInt8.le_iff_toNat_le, ← UInt8.toNat_inj, and_assoc] using h

/-- The characters whose upper case is a letter of a name. -/
theorem upperCode_eq_iff (h : isNameLetter letter = true) {n : Nat} :
    upperCode n = letter.toNat ↔
      n = letter.toNat ∨ n = letter.toNat + 32 ∨ letter = 0x49 ∧ n = 0x131 := by
  have hbounds := isNameLetter_bounds h
  have hI : letter = 0x49 ↔ letter.toNat = 73 := by rw [← UInt8.toNat_inj]; rfl
  simp only [upperCode, Bool.and_eq_true, decide_eq_true_eq, beq_iff_eq, hI]
  split
  · omega
  · split
    · omega
    · split <;> omega

theorem small_toNat (h : isNameLetter letter = true) : (letter + 32).toNat = letter.toNat + 32 := by
  have hbounds := isNameLetter_bounds h
  have hsum : (letter + 32).toNat = (letter.toNat + 32) % 256 := UInt8.toNat_add letter 32
  omega

/-- A form of a letter is one character, and the letter is its upper case. -/
theorem characters_form_append (h : isNameLetter letter = true) {form : Text}
    (hform : IsForm letter form) (t : Text) :
    ∃ n, characters (form ++ t) = ⟨n, form⟩ :: characters t ∧ upperCode n = letter.toNat := by
  have hbounds := isNameLetter_bounds h
  have hascii (b : UInt8) (hb : b.toNat < 128) :
      characters ([b] ++ t) = ⟨b.toNat, [b]⟩ :: characters t := by
    have hone := Text.characters_ascii_append (s := [b]) (by simpa [UInt8.lt_iff_toNat_lt] using hb) t
    exact hone
  cases hform with
  | capital =>
    exact ⟨letter.toNat, hascii letter (by omega), (upperCode_eq_iff h).mpr (.inl rfl)⟩
  | small =>
    have hsmall := small_toNat h
    refine ⟨(letter + 32).toNat, hascii _ (by omega), ?_⟩
    exact (upperCode_eq_iff h).mpr (.inr (.inl hsmall))
  | dotless isI =>
    refine ⟨0x131, ?_, (upperCode_eq_iff h).mpr (.inr (.inr ⟨isI, rfl⟩))⟩
    have hbytes : dotlessI = [0xC4, 0xB1] := by decide
    rw [hbytes]
    rfl

/-- A character whose upper case is a letter of a name is a form of it. -/
theorem isForm_of_upperCode (h : isNameLetter letter = true) {c : Character} {s : Text}
    (hc : c ∈ characters s) (hcode : upperCode c.code = letter.toNat) : IsForm letter c.bytes := by
  obtain ⟨b, rest, rfl⟩ := Text.characters_eq_leading hc
  have hbounds := isNameLetter_bounds h
  have hcases := (upperCode_eq_iff h).mp hcode
  have hvalid : (Text.leading b rest).code ≠ Text.replacement := by
    unfold Text.replacement
    omega
  rw [← Text.ofCode_code_leading hvalid]
  rcases hcases with hn | hn | ⟨rfl, hn⟩
  · have hascii : letter < 0x80 := show letter.toNat < 128 by omega
    rw [hn, Text.ofCode_one hascii]
    exact .capital
  · have hsmall := small_toNat h
    have hascii : letter + 32 < 0x80 := show (letter + 32).toNat < 128 by omega
    rw [hn, ← hsmall, Text.ofCode_one hascii]
    exact .small
  · have hbytes : Text.ofCode 0x131 = dotlessI := by decide
    rw [hn, hbytes]
    exact .dotless rfl

/-! ## Words -/

/-- Characters of a text that have the letters of a word as upper cases spell the word: each of them
is a form of the letter. -/
theorem spells_ofCharacters {cs : List Character} (hword : ∀ b ∈ word, isNameLetter b = true)
    (hcs : ∀ c ∈ cs, c ∈ characters t)
    (h : (cs.map (·.code)).map upperCode = word.map UInt8.toNat) :
    Spells word (Text.ofCharacters cs) := by
  induction cs generalizing word with
  | nil =>
    have hnil : word = [] := by simpa using h
    rw [hnil]
    exact .nil
  | cons c cs ih =>
    cases word with
    | nil => simp at h
    | cons letter word =>
      obtain ⟨hletter, hword⟩ := List.forall_mem_cons.mp hword
      obtain ⟨hc, hcs⟩ := List.forall_mem_cons.mp hcs
      simp only [List.map_cons, List.cons.injEq] at h
      exact .cons (isForm_of_upperCode hletter hc h.1) (ih hword hcs h.2)

/-- A text spells a word exactly if its characters have the letters of the word as upper cases. -/
theorem spells_iff (hword : ∀ b ∈ word, isNameLetter b = true) :
    Spells word t ↔ (Text.codes t).map upperCode = word.map UInt8.toNat := by
  constructor
  · intro h
    induction h with
    | nil => rfl
    | @cons letter form word t first rest ih =>
      obtain ⟨hletter, hword⟩ := List.forall_mem_cons.mp hword
      obtain ⟨n, hcharacters, hupper⟩ := characters_form_append hletter first t
      have hrest := ih hword
      unfold Text.codes at hrest ⊢
      rw [hcharacters, List.map_cons, List.map_cons, List.map_cons, hupper, hrest]
  · intro h
    have hspells := spells_ofCharacters hword (fun c hc => hc) h
    rwa [Text.ofCharacters_characters] at hspells

/-- The codes of a word in ASCII are its bytes. -/
theorem codes_of_isNameLetter (hword : ∀ b ∈ word, isNameLetter b = true) :
    Text.codes word = word.map UInt8.toNat := by
  have hascii : ∀ b ∈ word, b < 0x80 := by
    intro b hb
    have hbounds := isNameLetter_bounds (hword b hb)
    show b.toNat < 128
    omega
  have hcharacters := Text.characters_ascii_append hascii []
  rw [List.append_nil] at hcharacters
  rw [Text.codes, hcharacters]
  simp [characters, Text.charactersFrom]

/-! ## Without the dotless letter -/

/-- Two bytes are the same small letter if one of them is the letter and the other a case of it. -/
theorem lower_eq_iff (h : isNameLetter letter = true) {b : UInt8} :
    Text.lowerAscii [b] = Text.lowerAscii [letter] ↔ b = letter ∨ b = letter + 32 := by
  have hbounds := isNameLetter_bounds h
  have hsmall := small_toNat h
  have hsum : (b + 32).toNat = (b.toNat + 32) % 256 := UInt8.toNat_add b 32
  have hlt := b.toNat_lt
  simp only [Text.lowerAscii, List.map_cons, List.map_nil, List.cons.injEq, and_true,
    Bool.and_eq_true, decide_eq_true_eq, UInt8.le_iff_toNat_le, UInt8.reduceToNat, hbounds.1,
    hbounds.2.1, and_self, ↓reduceIte]
  split <;> simp only [← UInt8.toNat_inj] <;> omega

theorem lowerAscii_append (s t : Text) :
    Text.lowerAscii (s ++ t) = Text.lowerAscii s ++ Text.lowerAscii t := List.map_append

/-- A text that is a word up to the case of ASCII letters spells it. -/
theorem spells_of_lowerAscii (hword : ∀ b ∈ word, isNameLetter b = true)
    (h : Text.lowerAscii t = Text.lowerAscii word) : Spells word t := by
  induction word generalizing t with
  | nil =>
    have hnil : t = [] := by simpa [Text.lowerAscii] using h
    rw [hnil]
    exact .nil
  | cons letter word ih =>
    obtain ⟨hletter, hword⟩ := List.forall_mem_cons.mp hword
    cases t with
    | nil => simp [Text.lowerAscii] at h
    | cons b t =>
      obtain ⟨hfirst, hrest⟩ := List.cons.inj h
      have hb : Text.lowerAscii [b] = Text.lowerAscii [letter] := congrArg (fun c => [c]) hfirst
      have hform : IsForm letter [b] := by
        rcases (lower_eq_iff hletter).mp hb with rfl | rfl
        · exact .capital
        · exact .small
      exact .cons hform (ih hword hrest)

/-- Without the dotless letter only the case of ASCII letters is left open. -/
theorem lowerAscii_of_spells (hword : ∀ b ∈ word, isNameLetter b = true) (h : Spells word t)
    (hdotless : ¬ dotlessI <:+: t) : Text.lowerAscii t = Text.lowerAscii word := by
  induction h with
  | nil => rfl
  | @cons letter form word t first rest ih =>
    obtain ⟨hletter, hword⟩ := List.forall_mem_cons.mp hword
    have hrest := ih hword fun hin => hdotless (hin.trans (List.suffix_append form t).isInfix)
    have hform : Text.lowerAscii form = Text.lowerAscii [letter] := by
      cases first with
      | capital => rfl
      | small => exact (lower_eq_iff hletter).mpr (.inr rfl)
      | dotless isI => exact absurd (List.prefix_append dotlessI t).isInfix hdotless
    rw [lowerAscii_append, hform, hrest]
    rfl

/-! ## Reading a severity -/

theorem isNameLetter_of_named : ∀ s ∈ named, ∀ b ∈ s.name, isNameLetter b = true := by
  have hall : ∀ s ∈ named, s.name.all isNameLetter = true := by decide
  exact fun s hs => List.all_eq_true.mp (hall s hs)

/-- No two severities have the same name. -/
theorem name_inj : ∀ s ∈ named, ∀ s' ∈ named, s.name = s'.name → s = s' := by decide

theorem codes_name_eq_iff {s : Severity} (hs : s ∈ named) :
    (Text.codes s.name == (Text.codes t).map upperCode) = true ↔ Spells s.name t := by
  have hletters := isNameLetter_of_named s hs
  rw [spells_iff hletters, codes_of_isNameLetter hletters, beq_iff_eq, eq_comm]

/-- A text spells the name of one severity at most. -/
theorem eq_of_spells {s s' : Severity} (hs : s ∈ named) (hs' : s' ∈ named)
    (h : Spells s.name t) (h' : Spells s'.name t) : s = s' := by
  have hcodes := (spells_iff (isNameLetter_of_named s hs)).mp h
  rw [(spells_iff (isNameLetter_of_named s' hs')).mp h'] at hcodes
  refine name_inj s hs s' hs' (List.map_injective_iff.mpr ?_ hcodes.symm)
  intro b c hbc
  exact UInt8.toNat_inj.mp hbc

theorem parse_eq_ok_iff {s : Severity} :
    parse t = .ok s ↔ s ∈ named ∧ Spells s.name (Text.trim t) := by
  unfold parse
  simp only
  constructor
  · intro h
    split at h
    · next s' hfind =>
      obtain rfl : s' = s := by simpa using h
      have hs := List.mem_of_find?_eq_some hfind
      have hfound := List.find?_some hfind
      exact ⟨hs, (codes_name_eq_iff hs).mp hfound⟩
    · cases h
  · rintro ⟨hs, hspells⟩
    cases hfind : named.find? fun s =>
        Text.codes s.name == (Text.codes (Text.trim t)).map upperCode with
    | none =>
      have hnot := List.find?_eq_none.mp hfind s hs
      exact absurd ((codes_name_eq_iff hs).mpr hspells) hnot
    | some s' =>
      have hs' := List.mem_of_find?_eq_some hfind
      have hfound := List.find?_some hfind
      have hspells' := (codes_name_eq_iff hs').mp hfound
      rw [eq_of_spells hs' hs hspells' hspells]

theorem parse_eq_error_iff {e : NameError} :
    parse t = .error e ↔ e = ⟨t⟩ ∧ ∀ s ∈ named, ¬ Spells s.name (Text.trim t) := by
  have hfault : ∀ e, parse t = .error e → e = ⟨t⟩ := by
    intro e h
    unfold parse at h
    simp only at h
    split at h
    · cases h
    · exact (Except.error.inj h).symm
  constructor
  · intro h
    refine ⟨hfault e h, fun s hs hspells => ?_⟩
    rw [parse_eq_ok_iff.mpr ⟨hs, hspells⟩] at h
    cases h
  · rintro ⟨rfl, hnone⟩
    cases hread : parse t with
    | error e => rw [hfault e hread]
    | ok s =>
      obtain ⟨hs, hspells⟩ := parse_eq_ok_iff.mp hread
      exact absurd hspells (hnone s hs)

/-- What reading a severity from a text comes to. -/
structure ReadsNames (t : Text) : Prop where
  /-- A severity is read exactly if the text, without white space around it, spells its name. -/
  ok_iff : ∀ s, parse t = .ok s ↔ s ∈ named ∧ Spells s.name (Text.trim t)
  /-- Any other text is an error that holds the text. -/
  error_iff : ∀ e, parse t = .error e ↔ e = ⟨t⟩ ∧ ∀ s ∈ named, ¬ Spells s.name (Text.trim t)
  /-- What spells a name is the name up to the case of ASCII letters, where no dotless letter is. -/
  ascii : ¬ dotlessI <:+: Text.trim t → ∀ s ∈ named,
    (Spells s.name (Text.trim t) ↔ Text.lowerAscii (Text.trim t) = Text.lowerAscii s.name)
  /-- The name up to the case of ASCII letters is always read. -/
  ok_of_lowerAscii : ∀ s ∈ named, Text.lowerAscii (Text.trim t) = Text.lowerAscii s.name →
    parse t = .ok s
  /-- A severity is replaced by the one that is read, and stays as it is after an error. -/
  update : ∀ current s, update current t = s ↔
    s ∈ named ∧ Spells s.name (Text.trim t) ∨
      s = current ∧ ∀ s' ∈ named, ¬ Spells s'.name (Text.trim t)

/-- A severity is read from its name, up to the case of the letters, of which `I` has one more small
letter than the one of ASCII. -/
theorem parse_readsNames (t : Text) : ReadsNames t where
  ok_iff _ := parse_eq_ok_iff
  error_iff _ := parse_eq_error_iff
  ascii hdotless s hs := by
    have hletters := isNameLetter_of_named s hs
    exact ⟨fun h => lowerAscii_of_spells hletters h hdotless, spells_of_lowerAscii hletters⟩
  ok_of_lowerAscii s hs h :=
    parse_eq_ok_iff.mpr ⟨hs, spells_of_lowerAscii (isNameLetter_of_named s hs) h⟩
  update current s := by
    unfold Severity.update
    cases hread : parse t with
    | ok s' =>
      obtain ⟨hs', hspells'⟩ := parse_eq_ok_iff.mp hread
      constructor
      · rintro rfl
        exact .inl ⟨hs', hspells'⟩
      · rintro (⟨hs, hspells⟩ | ⟨-, hnone⟩)
        · exact eq_of_spells hs' hs hspells' hspells
        · exact absurd hspells' (hnone s' hs')
    | error e =>
      have hnone := (parse_eq_error_iff.mp hread).2
      constructor
      · rintro rfl
        exact .inr ⟨rfl, hnone⟩
      · rintro (⟨hs, hspells⟩ | ⟨rfl, -⟩)
        · exact absurd hspells (hnone s hs)
        · rfl

/-- With a dotless letter a text is read that is no name up to the case of ASCII letters. -/
theorem parse_dotless :
    parse "\u0131nfo" = .ok .info ∧
      ∀ s ∈ named, Text.lowerAscii (Text.trim "\u0131nfo") ≠ Text.lowerAscii s.name := by
  decide

end CaseCover.Severity
