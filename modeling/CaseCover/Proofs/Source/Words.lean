import CaseCover.Proofs.Source.Spacing
import CaseCover.Proofs.Text.Characters

/-!
# Names and literals as they are read

The text of a token is what the reader of lexemes found (`IsRead`). Names start with other bytes than
literals and signs do, and hold no period (`IsRead.ident`, `IsRead.literal`), although the characters
of a name may take several bytes. All names and literals among the tokens of a text are read in this
way (`isWord_of_read`).
-/

namespace CaseCover.Token

/-! ## First bytes -/

/-- A byte that can be the first one of a name. -/
def startsName (b : UInt8) : Bool := 0x80 ≤ b || isNameStart b.toNat

/-- A byte that can be the first one of a literal. -/
def startsLiteral (b : UInt8) : Bool :=
  Text.isDigit b || b == 0x2E || b == 0x22 || b == 0x27 || b == 0x60

/-- Literals and signs do not start as names do. -/
theorem startsName_eq_false {b : UInt8} (h : startsLiteral b = true ∨ b = 0x2B ∨ b = 0x2D) :
    startsName b = false := by
  have hcases : Text.isDigit b = true ∨ b = 0x2E ∨ b = 0x22 ∨ b = 0x27 ∨ b = 0x60 ∨ b = 0x2B ∨
      b = 0x2D := by
    simp only [startsLiteral, Bool.or_eq_true, beq_iff_eq] at h
    tauto
  rcases hcases with hdigit | hmark
  · simp only [Text.isDigit, Bool.and_eq_true, decide_eq_true_eq, UInt8.le_iff_toNat_le,
      UInt8.reduceToNat] at hdigit
    simp only [startsName, isNameStart, Text.isLetterCode, if_pos (by omega : b.toNat < 0x80),
      UInt8.le_iff_toNat_le, UInt8.reduceToNat, Bool.or_eq_false_iff, Bool.and_eq_false_iff,
      decide_eq_false_iff_not, beq_eq_false_iff_ne]
    omega
  · rcases hmark with rfl | rfl | rfl | rfl | rfl | rfl <;> decide

theorem startsName_of_leading {b : UInt8} {rest : Text}
    (h : isNameStart (Text.leading b rest).code = true) : startsName b = true := by
  unfold startsName
  by_cases hb : b < 0x80
  · rw [Text.leading_ascii hb] at h
    rw [h, Bool.or_true]
  · rw [decide_eq_true (UInt8.not_lt.mp hb), Bool.true_or]

/-! ## Names and literals -/

/-- No name has a period in it. -/
theorem period_not_mem_nameFrom {skip : Nat} {t : Text} (h : ∀ c ∈ t.take skip, 0x80 ≤ c) :
    0x2E ∉ nameFrom skip t := by
  induction t generalizing skip with
  | nil => cases skip <;> exact List.not_mem_nil
  | cons b rest ih =>
    cases skip with
    | succ k =>
      rw [List.take_succ_cons, List.forall_mem_cons] at h
      rw [nameFrom, List.mem_cons, not_or]
      exact ⟨fun hb => absurd h.1 (hb ▸ by decide), ih h.2⟩
    | zero =>
      rw [nameFrom]
      split
      · next hpart =>
        rw [List.mem_cons, not_or]
        refine ⟨?_, ih fun c hc => ?_⟩
        · rintro rfl
          rw [Text.leading_ascii (by decide)] at hpart
          exact absurd hpart (by decide)
        · -- the rest of a character of several bytes
          obtain ⟨tail, hbytes, hprefix⟩ := Text.leading_bytes b rest
          rw [hbytes, List.length_cons, Nat.add_sub_cancel,
            ← List.prefix_iff_eq_take.mp hprefix] at hc
          have hmem : c ∈ (Text.leading b rest).bytes.tail := by
            rw [hbytes]
            exact hc
          exact Text.le_of_mem_tail hmem
      · exact List.not_mem_nil

/-- The text of a token of this kind, as it is read at the start of a text. -/
def IsRead (kind : TokenKind) (text : Text) : Prop :=
  ∃ b rest after, nextLexeme b rest = .ok (.token kind text, after)

/-- What a lexeme says of the text that it was read from. -/
def Lexeme.StartsAs (b : UInt8) (rest : Text) : Lexeme → Prop
  | .token .ident text => isNameStart (Text.leading b rest).code = true ∧ 0x2E ∉ text
  | .token (.literal _) _ => startsLiteral b = true
  | _ => True

theorem nextLexeme_startsAs (b : UInt8) (rest : Text) :
    Yields (fun r => Lexeme.StartsAs b rest r.1) (nextLexeme b rest) := by
  unfold nextLexeme
  extract_lets t first
  split
  · next hname =>
    have hperiod : 0x2E ∉ (splitName t).1 := @period_not_mem_nameFrom 0 t nofun
    split
    next name after hsplit =>
    rw [hsplit] at hperiod
    split
    · exact .ok trivial
    · exact .ok ⟨hname, hperiod⟩
  split
  · next hnumber =>
    have hstart : startsLiteral b = true := by
      simp only [startsLiteral, Bool.or_eq_true, Bool.and_eq_true] at hnumber ⊢
      grind
    exact (scanNumber_yields t).bind fun r _ => .ok hstart
  split
  · next hquote =>
    have hstart : startsLiteral b = true := by simp [startsLiteral, hquote]
    exact (skipQuoted_yields _ _ _ _).bind fun r _ => .ok hstart
  split
  · next hquote =>
    have hstart : startsLiteral b = true := by simp [startsLiteral, hquote]
    exact (skipQuoted_yields _ _ _ _).bind fun r _ => Yields.guard fun _ => .ok hstart
  split
  · next hquote =>
    have hstart : startsLiteral b = true := by simp [startsLiteral, hquote]
    exact (splitRaw_yields rest).bind fun r _ => .ok hstart
  split
  · exact .ok trivial
  split
  · exact (splitBlockComment_yields _).bind fun r _ => .ok trivial
  · split
    · exact .ok trivial
    · exact .error

/-- A token starts with the byte at which it was read. -/
theorem IsRead.exists_start {kind : TokenKind} {text : Text} (h : IsRead kind text) :
    ∃ b rest tail, text = b :: tail ∧ Lexeme.StartsAs b rest (.token kind text) := by
  obtain ⟨b, rest, after, hnext⟩ := h
  have hhead := (nextLexeme_yields b rest _ hnext).1.head?_eq
  obtain ⟨tail, htext⟩ := List.head?_eq_some_iff.mp hhead
  exact ⟨b, rest, tail, htext, nextLexeme_startsAs b rest _ hnext⟩

/-- A name starts with a byte for names, and holds no period. -/
theorem IsRead.ident {text : Text} (h : IsRead .ident text) :
    (∃ b tail, text = b :: tail ∧ startsName b = true) ∧ 0x2E ∉ text := by
  obtain ⟨b, rest, tail, htext, hname, hperiod⟩ := h.exists_start
  exact ⟨⟨b, tail, htext, startsName_of_leading hname⟩, hperiod⟩

/-- A literal starts with a byte for literals. -/
theorem IsRead.literal {kind : Const.LiteralKind} {text : Text} (h : IsRead (.literal kind) text) :
    ∃ b tail, text = b :: tail ∧ startsLiteral b = true := by
  obtain ⟨b, rest, tail, htext, hstart⟩ := h.exists_start
  exact ⟨b, tail, htext, hstart⟩

/-! ## Tokens of a text -/

/-- The text of a name or literal is read as such. -/
def IsWord (t : Token) : Prop :=
  t.kind = .ident ∨ (∃ kind, t.kind = .literal kind) → IsRead t.kind t.text

theorem isWord_of_op {pos : Pos} {o : Op} {text : Text} : IsWord ⟨pos, .op o, text⟩ := by
  rintro (h | ⟨kind, h⟩) <;> cases h

theorem isWord_eof {pos : Pos} {text : Text} : IsWord ⟨pos, .eof, text⟩ := by
  rintro (h | ⟨kind, h⟩) <;> cases h

theorem isWord_of_scanFrom {base : Pos} {fuel offset : Nat} {opened : Bool} {tokens : List Token}
    {comments : List RawComment} {t : Text} (h : ∀ u ∈ tokens, IsWord u) :
    ∀ u ∈ (scanFrom base fuel offset opened tokens comments t).tokens, IsWord u := by
  have hend {ts : List Token} (hts : ∀ u ∈ ts, IsWord u) (pos : Pos) :
      ∀ u ∈ (⟨pos, .eof, []⟩ :: ts).reverse, IsWord u := by
    intro u hu
    rcases List.mem_cons.mp (List.mem_reverse.mp hu) with rfl | hu
    · exact isWord_eof
    · exact hts u hu
  have hcollect {v : Token} {ts : List Token} (hv : IsWord v) (hts : ∀ u ∈ ts, IsWord u) :
      ∀ u ∈ v :: ts, IsWord u := List.forall_mem_cons.mpr ⟨hv, hts⟩
  induction fuel generalizing offset opened tokens comments t with
  | zero => exact hend h _
  | succ fuel ih =>
    cases t with
    | nil =>
      rw [scanFrom]
      split
      · exact hend (hcollect isWord_of_op h) _
      · exact hend h _
    | cons b rest =>
      rw [scanFrom]
      split
      · exact ih h
      split
      · split
        · exact ih (hcollect isWord_of_op h)
        · exact ih h
      split
      · exact hend h _
      · next lexeme after hnext =>
        cases lexeme with
        | token kind text => exact ih (hcollect (fun _ => ⟨b, rest, after, hnext⟩) h)
        | comment text =>
          dsimp only
          split
          · exact ih (hcollect isWord_of_op h)
          · exact ih h

theorem isWord_of_read {base : Pos} {t : Text} {ts : List Token} {comments : List RawComment}
    (h : read base t = .ok (ts, comments)) : ∀ u ∈ ts, IsWord u := by
  unfold read at h
  split at h
  · cases h
  · dsimp only at h
    split at h <;> cases h
    exact isWord_of_scanFrom nofun

end CaseCover.Token
