import CaseCover.Proofs.Source.Reader

/-!
# Where tokens stand

The lexeme at the start of a text takes at least one byte, and the text of a token is no longer than
what it takes (`StartsWith`). So the tokens of a text lie one after the other from its first
position on (`spaced_of_read`).
-/

namespace CaseCover

/-- A computation that succeeds gives a result with a property. -/
def Yields {ε α : Type} (P : α → Prop) (x : Except ε α) : Prop := ∀ a, x = .ok a → P a

namespace Yields

variable {ε α β : Type} {P : α → Prop} {Q : β → Prop}

theorem ok {a : α} (h : P a) : Yields P (.ok a : Except ε α) := by
  intro b hb
  cases hb
  exact h

theorem error {e : ε} : Yields P (.error e : Except ε α) := fun _ h => nomatch h

theorem bind {x : Except ε α} {k : α → Except ε β} (hx : Yields P x)
    (hk : ∀ a, P a → Yields Q (k a)) : Yields Q (x >>= k) := by
  cases x with
  | error e => exact error
  | ok a => exact hk a (hx a rfl)

theorem map {x : Except ε α} {f : α → β} (hx : Yields P x) (hf : ∀ a, P a → Q (f a)) :
    Yields Q (x.map f) := by
  cases x with
  | error e => exact error
  | ok a => exact ok (hf a (hx a rfl))

/-- A check in front of a computation. -/
theorem guard {c : Prop} [Decidable c] {e : ε} {x : Except ε α} {k : β → Except ε α}
    (h : ¬ c → Yields P x) : Yields P (if c then (throw e : Except ε β) >>= k else x) := by
  split
  · exact error
  · next hc => exact h hc

end Yields

namespace Token

open Yields (ok error)

/-! ## What a lexeme takes -/

/-- A text starts with a token: its text is not empty and starts with the same byte, and what comes
after it is shorter at least by that text. -/
structure StartsWith (t text rest : Text) : Prop where
  nonempty : text ≠ []
  head?_eq : text.head? = t.head?
  length_le : text.length + rest.length ≤ t.length

/-- A shorter rest at the end leaves a lexeme in front. -/
theorem StartsWith.of_take {t rest : Text} (h : rest.length < t.length) :
    StartsWith t (t.take (t.length - rest.length)) rest := by
  have hlength : (t.take (t.length - rest.length)).length = t.length - rest.length := by
    rw [List.length_take]
    lia
  refine ⟨List.length_pos_iff.mp (by lia), ?_, by lia⟩
  rw [List.head?_take, if_neg (by lia)]

theorem StartsWith.rest_lt {t text rest : Text} (h : StartsWith t text rest) :
    rest.length < t.length := by
  have hpos := List.length_pos_iff.mpr h.nonempty
  have hle := h.length_le
  lia

/-! ## Names -/

theorem nameFrom_length_le (skip : Nat) (t : Text) : (nameFrom skip t).length ≤ t.length := by
  induction t generalizing skip with
  | nil => cases skip <;> exact Nat.le_refl _
  | cons b rest ih =>
    cases skip with
    | succ k => exact Nat.succ_le_succ (ih k)
    | zero =>
      rw [nameFrom]
      split
      · exact Nat.succ_le_succ (ih _)
      · exact Nat.zero_le _

/-- A name is cut off at the start. -/
theorem splitName_startsWith {b : UInt8} {rest : Text}
    (h : isNameStart (Text.leading b rest).code = true) :
    StartsWith (b :: rest) (splitName (b :: rest)).1 (splitName (b :: rest)).2 := by
  have hpart : isNamePart (Text.leading b rest).code = true := by simp [isNamePart, h]
  have hlength := nameFrom_length_le 0 (b :: rest)
  refine ⟨?_, ?_, ?_⟩
  · simp [splitName, nameFrom, hpart]
  · simp [splitName, nameFrom, hpart]
  · simp only [splitName, List.length_drop]
    lia

/-! ## Numbers -/

theorem digitRun_length_le (base : Nat) (t : Text) : (digitRun base t).length ≤ t.length :=
  (List.takeWhile_prefix _).length_le

theorem length_pos_of_hasDigit {run : Text} (h : hasDigit run = true) : 0 < run.length := by
  cases run with
  | nil => cases h
  | cons b run => exact Nat.succ_pos _

/-- There is a digit, before the point or behind it, so something has been passed over. -/
theorem afterFraction_length_lt {base : Nat} {t : Text} :
    let whole := digitRun base t
    let afterWhole := t.drop whole.length
    let pointed := afterWhole.head? == some 0x2E
    let fraction := if pointed then digitRun base (afterWhole.drop 1) else []
    (hasDigit whole || hasDigit fraction) = true →
      (if pointed then afterWhole.drop (1 + fraction.length) else afterWhole).length < t.length := by
  intro whole afterWhole pointed fraction hdigits
  have hwhole : whole.length ≤ t.length := digitRun_length_le base t
  have hafter : afterWhole.length = t.length - whole.length := List.length_drop
  by_cases hpointed : pointed = true
  · have hpoint : 0 < afterWhole.length := by
      cases hcase : afterWhole with
      | nil => simp [pointed, hcase] at hpointed
      | cons b rest => exact Nat.succ_pos _
    rw [if_pos hpointed, List.length_drop]
    lia
  · have hfraction : fraction = [] := if_neg hpointed
    have hdigits : hasDigit whole = true := by simpa [hfraction, hasDigit] using hdigits
    have hpos := length_pos_of_hasDigit hdigits
    rw [if_neg hpointed]
    lia

/-- A number is cut off at the start, whatever its form is. -/
theorem scanNumber_yields (t : Text) :
    Yields (fun r => StartsWith t r.2.1 r.2.2) (scanNumber t) := by
  unfold scanNumber
  split
  next mark afterMark hmark =>
  have hafterMark : afterMark.length ≤ t.length := by
    split at hmark
    · split at hmark
      · cases hmark
        exact Nat.le_add_right _ 2
      · cases hmark
        exact Nat.le_refl _
    · cases hmark
      exact Nat.le_refl _
  extract_lets base whole afterWhole pointed fraction afterFraction limit finish exponent start
  refine Yields.guard fun _ => Yields.guard fun hdigits => ?_
  have hdigits : (hasDigit whole || hasDigit fraction) = true := by
    rwa [Bool.not_eq_true, Bool.not_eq_false'] at hdigits
  have hshort : afterFraction.length < t.length :=
    Nat.lt_of_lt_of_le (afterFraction_length_lt hdigits) hafterMark
  have hfinish (isFloat : Bool) {after : Text} (hafter : after.length < t.length) :
      Yields (fun r => StartsWith t r.2.1 r.2.2) (finish (isFloat, after)) := by
    simp -zeta only [finish]
    extract_lets imaginary rest text kind body give check
    have hrest : rest.length < t.length := by
      simp only [rest]
      split
      · simp only [List.length_drop]
        lia
      · exact hafter
    have hcheck : Yields (fun r => StartsWith t r.2.1 r.2.2) (check ()) :=
      Yields.guard fun _ => Yields.ok (StartsWith.of_take hrest)
    split
    · exact Yields.guard fun _ => hcheck
    · exact hcheck
  clear_value afterFraction
  simp -zeta only [exponent]
  split
  · next e rest =>
    rw [List.length_cons] at hshort
    split
    · extract_lets rest' digits give withDigits positive
      refine Yields.guard fun _ => Yields.guard fun _ => Yields.guard fun _ => hfinish true ?_
      have hrest' : rest'.length ≤ rest.length := by
        simp only [rest']
        split
        · simp only [List.length_drop]
          lia
        · exact Nat.le_refl _
      simp only [List.length_drop]
      lia
    · exact Yields.guard fun _ => hfinish _ hshort
  · exact Yields.guard fun _ => hfinish _ hshort

/-! ## Characters, strings and comments -/

theorem takeDigits_length_le {base count n : Nat} {t after : Text}
    (h : Const.takeDigits base count t = some (n, after)) : after.length ≤ t.length := by
  unfold Const.takeDigits at h
  split at h
  · cases h
  · obtain ⟨_, _, heq⟩ := Option.map_eq_some_iff.mp h
    cases heq
    simp

/-- Skipping an escape adds nothing to the text. -/
theorem skipEscape_yields (quote : UInt8) (t : Text) :
    Yields (fun after => after.length ≤ t.length) (skipEscape quote t) := by
  cases t with
  | nil => exact error
  | cons b rest =>
    simp -zeta only [skipEscape]
    split
    · exact ok (Nat.le_succ _)
    · extract_lets number
      have hnumber (base count limit : Nat) (digits : Text)
          (hle : digits.length ≤ rest.length + 1) :
          Yields (fun after => after.length ≤ rest.length + 1)
            (number base count limit digits) := by
        simp only [number]
        split
        · next n after htake =>
          split
          · exact error
          · exact ok (Nat.le_trans (takeDigits_length_le htake) hle)
        · exact error
      split
      · exact hnumber 8 3 255 (b :: rest) (Nat.le_refl _)
      · split
        · exact hnumber 16 2 255 rest (Nat.le_succ _)
        · split
          · exact hnumber 16 4 0x10FFFF rest (Nat.le_succ _)
          · split
            · exact hnumber 16 8 0x10FFFF rest (Nat.le_succ _)
            · exact error

theorem skipQuoted_yields (quote : UInt8) (fuel count : Nat) (t : Text) :
    Yields (fun r => r.2.length ≤ t.length) (skipQuoted quote fuel count t) := by
  induction fuel generalizing count t with
  | zero => exact error
  | succ fuel ih =>
    cases t with
    | nil => exact error
    | cons b rest =>
      unfold skipQuoted
      split
      · exact error
      · split
        · exact ok (Nat.le_succ _)
        · split
          · refine (skipEscape_yields quote rest).bind fun after hafter r hr => ?_
            exact Nat.le_trans (ih _ _ r hr) (Nat.le_succ_of_le hafter)
          · intro r hr
            have hle := ih _ _ r hr
            rw [List.length_drop] at hle
            rw [List.length_cons]
            lia

/-- A raw string, its closing quote and the rest make up the text. -/
theorem splitRaw_yields (t : Text) :
    Yields (fun r => r.1.length + 1 + r.2.length = t.length) (splitRaw t) := by
  induction t with
  | nil => exact error
  | cons b rest ih =>
    unfold splitRaw
    split
    · exact ok (Nat.add_comm 1 _)
    · refine ih.map fun r hr => ?_
      simp only [List.length_cons]
      lia

/-- What is left behind a block comment is no longer than the text. -/
theorem splitBlockComment_yields (t : Text) :
    Yields (fun r => r.2.length ≤ t.length) (splitBlockComment t) := by
  induction t using splitBlockComment.induct with
  | case1 => exact error
  | case2 rest => exact ok (Nat.le_add_right _ 2)
  | case3 b rest hclose ih =>
    rw [splitBlockComment.eq_3 b rest hclose]
    exact ih.map fun r hr => Nat.le_succ_of_le hr

/-! ## Operators -/

theorem text_of_ofText? {t : Text} {o : Op} (h : Op.ofText? t = some o) : o.text = t := by
  have hspelling : ∀ e ∈ Op.spellings, e.1.text = e.2 := by decide
  obtain ⟨⟨o', text⟩, hfind, rfl⟩ := Option.map_eq_some_iff.mp h
  have htext := List.find?_some hfind
  rw [← beq_iff_eq.mp htext]
  exact hspelling _ (List.mem_of_find?_eq_some hfind)

theorem splitOp_startsWith {t after : Text} {o : Op} (h : splitOp t = some (o, after)) :
    StartsWith t o.text after := by
  unfold splitOp at h
  extract_lets pick at h
  have hpick {n : Nat} (hn : pick n = some (o, after)) : StartsWith t o.text after := by
    simp only [pick] at hn
    split at hn
    · next o' hof =>
      split at hn
      · next hcond =>
        cases hn
        rw [Bool.and_eq_true, beq_iff_eq] at hcond
        have htext := text_of_ofText? hof
        have hlength := congrArg List.length htext
        rw [hcond.1] at hlength
        have hpos := o.text_length_pos
        rw [List.length_take] at hcond
        refine ⟨List.length_pos_iff.mp hpos, ?_, ?_⟩
        · rw [htext, List.head?_take, if_neg (by lia)]
        · rw [List.length_drop]
          lia
      · cases hn
    · cases hn
  rcases Option.or_eq_some_iff.mp h with h | ⟨-, h⟩
  · exact hpick h
  · rcases Option.or_eq_some_iff.mp h with h | ⟨-, h⟩
    · exact hpick h
    · exact hpick h

/-! ## Lexemes -/

/-- What a text starts with, and what comes after it: a token takes its text at least, and a comment
takes something. -/
def Lexeme.Fits (t : Text) : Lexeme × Text → Prop
  | (.token kind text, rest) => StartsWith t text rest ∧ ∀ p, (⟨p, kind, text⟩ : Token).Sound
  | (.comment _, rest) => rest.length < t.length

/-- A lexeme takes at least one byte, so the scan comes to an end. -/
theorem Lexeme.Fits.rest_lt {t : Text} {r : Lexeme × Text} (h : Fits t r) :
    r.2.length < t.length := by
  obtain ⟨kind | text, rest⟩ := r
  · exact h.1.rest_lt
  · exact h

/-- A lexeme is cut off at the start of the text. -/
theorem nextLexeme_yields (b : UInt8) (rest : Text) :
    Yields (Lexeme.Fits (b :: rest)) (nextLexeme b rest) := by
  unfold nextLexeme
  extract_lets t first
  split
  · next hname =>
    have hstarts := splitName_startsWith hname
    split
    next name after hsplit =>
    rw [show splitName (b :: rest) = (name, after) from hsplit] at hstarts
    split
    · next k hk => exact ok ⟨hstarts, fun _ => hk⟩
    · exact ok ⟨hstarts, fun _ => hstarts.nonempty⟩
  split
  · exact (scanNumber_yields t).bind fun r hr => ok ⟨hr, fun _ => hr.nonempty⟩
  have hquoted {kind : Const.LiteralKind} {r : Nat × Text} (hr : r.2.length ≤ rest.length) :
      Lexeme.Fits t (.token (.literal kind) (t.take (t.length - r.2.length)), r.2) := by
    have hstarts : StartsWith t _ r.2 := .of_take (Nat.lt_succ_of_le hr)
    exact ⟨hstarts, fun _ => hstarts.nonempty⟩
  split
  · exact (skipQuoted_yields _ _ _ _).bind fun r hr => ok (hquoted hr)
  split
  · exact (skipQuoted_yields _ _ _ _).bind fun r hr => Yields.guard fun _ => ok (hquoted hr)
  split
  · -- carriage returns are left out of a raw string, so its text may be shorter than what it takes
    next hquote =>
    obtain rfl : b = 0x60 := beq_iff_eq.mp hquote
    refine (splitRaw_yields rest).bind fun r hr => ok ⟨⟨List.cons_ne_nil _ _, rfl, ?_⟩, fun _ =>
      List.cons_ne_nil _ _⟩
    have hle := List.length_filter_le (· ≠ 0x0D) r.1
    simp only [List.length_cons, List.length_append, List.length_nil]
    lia
  split
  · next hmark =>
    rw [Bool.and_eq_true, beq_iff_eq] at hmark
    have hline : 0 < (t.takeWhile (· ≠ 0x0A)).length := by simp [t, hmark.1]
    refine ok (?_ : (t.drop _).length < t.length)
    have hlength : t.length = rest.length + 1 := rfl
    rw [List.length_drop]
    lia
  split
  · refine (splitBlockComment_yields _).bind fun r hr => ok (Nat.lt_succ_of_le ?_)
    exact Nat.le_trans hr (List.drop_sublist 1 rest).length_le
  · split
    · next o after hop => exact ok ⟨splitOp_startsWith hop, fun _ => rfl⟩
    · exact error

/-! ## All lexemes of a text -/

/-- A token lies between two positions, and starts before the end of the text. -/
structure Lies (hi : Pos) (lo : Pos) (t : Token) (stop : Pos) : Prop where
  sound : t.Sound
  le_pos : lo ≤ t.pos
  pos_le : t.pos ≤ hi
  stop_le : t.stop ≤ stop

variable {hi lo lo' : Pos} {ts : List Token}

/-- Tokens in turn are spaced, with the end of the text behind them. -/
theorem spaced_of_inTurn {stop : Pos} (h : InTurn (Lies hi) lo ts stop) (hlo : lo' ≤ lo)
    (text : Text) (p : Pos) : Spaced hi lo' (ts ++ [⟨p, .eof, text⟩]) := by
  induction ts generalizing lo lo' with
  | nil => exact .inl ⟨rfl, rfl⟩
  | cons t ts ih =>
    obtain ⟨mid, ht, hts⟩ := h
    exact .inr ⟨ht.sound, Nat.le_trans hlo ht.le_pos, ht.pos_le, ih hts ht.stop_le⟩

/-- A semicolon that a line break stands for. -/
theorem lies_semicolon {p : Pos} (hlo : lo ≤ p) (hhi : p ≤ hi) :
    Lies hi lo ⟨p, .op .semicolon, [0x0A]⟩ (p + 1) :=
  ⟨(by decide : ([0x0A] : Text).length = (Op.text .semicolon).length), hlo, hhi, Nat.le_refl _⟩

/-- The tokens scanned so far lie in turn before the rest of the text, so all will be spaced, by
induction on the fuel. -/
theorem scanFrom_spaced {base : Pos} {fuel offset : Nat} {opened : Bool} {tokens : List Token}
    {comments : List RawComment} {t : Text} {stop : Pos}
    (h : InTurn (Lies hi) base tokens.reverse stop) (hstop : stop ≤ base + offset)
    (hhi : base + offset + t.length = hi) :
    Spaced hi base (scanFrom base fuel offset opened tokens comments t).tokens := by
  have hend {ts : List Token} {stop : Pos} (hts : InTurn (Lies hi) base ts.reverse stop) (p : Pos) :
      Spaced hi base (⟨p, .eof, []⟩ :: ts).reverse := by
    rw [List.reverse_cons]
    exact spaced_of_inTurn hts (Nat.le_refl _) _ _
  -- the tokens so far lie in turn up to `stop`, which is not behind the text that is left
  induction fuel generalizing offset opened tokens comments t stop with
  | zero => exact hend h _
  | succ fuel ih =>
    have hsemi := lies_semicolon hstop (by lia : base + offset ≤ hi)
    cases t with
    | nil =>
      rw [scanFrom]
      split
      · exact hend (h.collect hsemi) _
      · exact hend h _
    | cons b rest =>
      rw [List.length_cons] at hhi
      rw [scanFrom]
      split
      · exact ih h (by lia) (by lia)
      split
      · split
        · exact ih (h.collect hsemi) (Nat.le_refl _) (by lia)
        · exact ih h (by lia) (by lia)
      split
      · exact hend h _
      · next lexeme after hnext =>
        have hfits := nextLexeme_yields b rest _ hnext
        have hafter := hfits.rest_lt
        rw [List.length_cons] at hafter
        cases lexeme with
        | token kind text =>
          obtain ⟨hstarts, hsound⟩ := hfits
          have hlength := hstarts.length_le
          rw [List.length_cons] at hlength
          have htoken : Lies hi stop ⟨base + offset, kind, text⟩ (base + offset + text.length) :=
            ⟨hsound _, hstop, by lia, Nat.le_refl _⟩
          exact ih (h.collect htoken) (by lia) (by lia)
        | comment text =>
          dsimp only at hafter ⊢
          -- a comment takes at least the byte of the semicolon that it may stand for
          by_cases hbreaks : (opened && text.contains 0x0A) = true
          · rw [if_pos hbreaks]
            exact ih (h.collect hsemi) (by lia) (by lia)
          · rw [if_neg hbreaks]
            exact ih h (by lia) (by lia)

/-- The tokens of a text are spaced from its first position on. -/
theorem scan_spaced (base : Pos) (t : Text) :
    Spaced (base + t.length) base (scan base t).tokens := by
  have hnone : InTurn (Lies (base + t.length)) base [] base := rfl
  rw [scan]
  split
  · next hmark =>
    have hle := (List.isPrefixOf_iff_prefix.mp hmark).length_le
    have hlength : (utf8 "\uFEFF").length = 3 := by decide
    refine scanFrom_spaced hnone (Nat.le_add_right _ _) ?_
    rw [List.length_drop]
    lia
  · exact scanFrom_spaced hnone (Nat.le_refl _) rfl

/-- The tokens of a text that could be read are spaced. -/
theorem spaced_of_read {base : Pos} {t : Text} {comments : List RawComment}
    (h : read base t = .ok (ts, comments)) : Spaced (base + t.length) base ts := by
  unfold read at h
  split at h
  · cases h
  · dsimp only at h
    split at h <;> cases h
    exact scan_spaced base t

end Token

end CaseCover
