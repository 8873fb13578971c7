import CaseCover.Source.Parse.Grammar

/-!
# What readers do with tokens

A reader that succeeds takes the tokens to come to others (`Reads`). The rules here follow the way
readers are put together, so that what a rule of the grammar reads is shown by going through it from
top to bottom.

The tokens to come lie one after the other from a position on (`Spaced`). Most readers start at some
position and end at another, and say of the tree they give that it lies between the two (`Upto`).
-/

namespace CaseCover

/-! ## Tokens one after the other -/

theorem Op.text_length_pos (o : Op) : 0 < o.text.length := by
  cases o <;> decide

theorem Keyword.mem_spellings_of_ofText? {t : Text} {k : Keyword} (h : ofText? t = some k) :
    (k, t) ∈ spellings := by
  obtain ⟨⟨k', text⟩, hfind, rfl⟩ := Option.map_eq_some_iff.mp h
  have htext := List.find?_some hfind
  rw [← beq_iff_eq.mp htext]
  exact List.mem_of_find?_eq_some hfind

theorem Keyword.length_pos_of_mem_spellings : ∀ e ∈ spellings, 0 < e.2.length := by
  decide

namespace Token

/-- Where a token ends. -/
def stop (t : Token) : Pos := t.pos + t.text.length

/-- A token has the text of its kind, or for operators a text as long. -/
def Sound (t : Token) : Prop :=
  match t.kind with
  | .eof => True
  | .ident => t.text ≠ []
  | .literal _ => t.text ≠ []
  | .op o => t.text.length = o.text.length
  | .keyword k => Keyword.ofText? t.text = some k

/-- Tokens that start at a position or later, each at the end of the one before it or later, and
none behind the end of the text. Where the text ends does not matter to readers. -/
def Spaced (hi : Pos) : Pos → List Token → Prop
  | _, [] => True
  | lo, t :: ts =>
    t.kind = .eof ∧ ts = [] ∨ t.Sound ∧ lo ≤ t.pos ∧ t.pos ≤ hi ∧ Spaced hi t.stop ts

variable {hi lo lo' : Pos} {t : Token} {ts : List Token}

theorem pos_le_stop (t : Token) : t.pos ≤ t.stop := Nat.le_add_right _ _

/-- Only the end of the input takes no bytes. -/
theorem Sound.pos_lt_stop (h : t.Sound) (hkind : t.kind ≠ .eof) : t.pos < t.stop := by
  refine Nat.lt_add_of_pos_right ?_
  unfold Sound at h
  split at h
  · next heof => exact absurd heof hkind
  · exact List.length_pos_iff.mpr h
  · exact List.length_pos_iff.mpr h
  · next o _ => exact h ▸ o.text_length_pos
  · exact Keyword.length_pos_of_mem_spellings _ (Keyword.mem_spellings_of_ofText? h)

/-- Tokens may be taken to start earlier than they do. -/
theorem Spaced.mono (h : Spaced hi lo ts) (hlo : lo' ≤ lo) : Spaced hi lo' ts := by
  cases ts with
  | nil => trivial
  | cons t ts =>
    rcases h with heof | ⟨hsound, hpos, hrest⟩
    · exact .inl heof
    · exact .inr ⟨hsound, Nat.le_trans hlo hpos, hrest⟩

theorem Spaced.tail (h : Spaced hi lo ts) : Spaced hi lo ts.tail := by
  cases ts with
  | nil => trivial
  | cons t ts =>
    rcases h with ⟨-, rfl⟩ | ⟨-, hpos, -, hrest⟩
    · trivial
    · exact hrest.mono (Nat.le_trans hpos t.pos_le_stop)

end Token

open Token (Spaced)

/-- The tokens are spaced from some position on that has a property. -/
def Upto (hi : Pos) (Q : Pos → Prop) (ts : List Token) : Prop := ∃ mid, Spaced hi mid ts ∧ Q mid

/-- The next token. -/
def Token.Next (t : Token) (ts : List Token) : Prop := ts.headD ⟨0, .eof, []⟩ = t

theorem Token.Spaced.of_next {hi lo : Pos} {t : Token} {ts : List Token} (h : Spaced hi lo ts)
    (hnext : t.Next ts) (hkind : t.kind ≠ .eof) : lo ≤ t.pos ∧ t.pos ≤ hi := by
  cases ts with
  | nil =>
    cases hnext
    exact absurd rfl hkind
  | cons u us =>
    cases hnext
    rcases h with ⟨heof, -⟩ | ⟨-, hlo, hhi, -⟩
    · exact absurd heof hkind
    · exact ⟨hlo, hhi⟩

/-- As `Upto`, but the property may hold only behind a closing brace that comes next. An empty
statement before a closing brace takes no tokens and starts where the brace does. -/
def UptoBrace (hi : Pos) (Q : Pos → Prop) (ts : List Token) : Prop :=
  Upto hi Q ts ∨
    ∃ (t : Token) (mid : Pos), t.Next ts ∧ t.kind = .op .rbrace ∧
      Spaced hi mid ts ∧ mid ≤ t.pos ∧ Q (t.pos + 1)

theorem Upto.imp {hi : Pos} {Q Q' : Pos → Prop} {ts : List Token} (h : Upto hi Q ts)
    (himp : ∀ mid, Q mid → Q' mid) : Upto hi Q' ts :=
  h.elim fun mid hmid => ⟨mid, hmid.1, himp mid hmid.2⟩

theorem UptoBrace.imp {hi : Pos} {Q Q' : Pos → Prop} {ts : List Token} (h : UptoBrace hi Q ts)
    (himp : ∀ mid, Q mid → Q' mid) : UptoBrace hi Q' ts := by
  rcases h with h | ⟨t, mid, hnext, hkind, hts, hmid, hq⟩
  · exact .inl (h.imp himp)
  · exact .inr ⟨t, mid, hnext, hkind, hts, hmid, himp _ hq⟩

/-! ## Readers -/

/-- From tokens with a property, a reader that succeeds gives a result and tokens that are as
described. -/
def Reads {α : Type} (P : List Token → Prop) (p : Parse α) (Q : α → List Token → Prop) : Prop :=
  ∀ st a st', P st.tokens → p st = .ok (a, st') → Q a st'.tokens

/-- A reader that passes over no token. -/
def Observes {α : Type} (p : Parse α) : Prop :=
  ∀ st a st', p st = .ok (a, st') → st'.tokens = st.tokens

section

variable {α β : Type} {P P' : List Token → Prop} {Q Q' : α → List Token → Prop}
  {R : β → List Token → Prop} {p : Parse α} {k : α → Parse β} {a : α} {φ : Prop}

theorem ok_of_bind {ε : Type} {x : Except ε α} {k : α → Except ε β} {b : β}
    (h : x >>= k = .ok b) : ∃ a, x = .ok a ∧ k a = .ok b := by
  cases x with
  | error fault => cases h
  | ok a => exact ⟨a, rfl, h⟩

/-- If a sequence of readers succeeds, the second one goes on where the first one stopped. -/
theorem run_bind {st : ParseState} {b : β} {st' : ParseState}
    (h : (p >>= k) st = .ok (b, st')) : ∃ a mid, p st = .ok (a, mid) ∧ k a mid = .ok (b, st') := by
  obtain ⟨r, hp, hk⟩ := ok_of_bind h
  exact ⟨r.1, r.2, hp, hk⟩

/-- What holds of the tokens still holds after they have been looked at. -/
theorem Observes.reads (h : Observes p) : Reads P p fun _ => P := by
  intro st a st' hst hrun
  rw [h st a st' hrun]
  exact hst

namespace Reads

/-- A stronger condition before a reader does as well. -/
theorem weaken (h : Reads P p Q) (hpre : ∀ ts, P' ts → P ts) : Reads P' p Q :=
  fun st a st' hst => h st a st' (hpre _ hst)

/-- A weaker condition behind a reader does as well. -/
theorem strengthen (h : Reads P p Q) (hpost : ∀ a ts, Q a ts → Q' a ts) : Reads P p Q' :=
  fun st a st' hst hrun => hpost _ _ (h st a st' hst hrun)

theorem pure (h : ∀ ts, P ts → Q a ts) : Reads P (Pure.pure a) Q := by
  intro st a' st' hst hrun
  cases hrun
  exact h _ hst

theorem pure_bind (h : Reads P (k a) R) : Reads P (Pure.pure a >>= k) R := h

theorem throw {fault : SourceFault} : Reads P (MonadExcept.throw fault : Parse α) Q :=
  fun _ _ _ _ hrun => nomatch hrun

theorem throw_bind {fault : SourceFault} : Reads P ((MonadExcept.throw fault : Parse α) >>= k) R :=
  fun _ _ _ _ hrun => nomatch hrun

/-- A sequence of readers, the second of which is told the result of the first one. -/
theorem bind (hp : Reads P p Q) (hk : ∀ a, Reads (Q a) (k a) R) : Reads P (p >>= k) R := by
  intro st b st' hst hrun
  obtain ⟨a, mid, ha, hb⟩ := run_bind hrun
  exact hk a mid b st' (hp st a mid hst ha) hb

/-- A reader that gives what lies up to a position, and a reader that goes on from there. -/
theorem then_ {hi : Pos} {Q : α → Pos → Prop} (hp : Reads P p fun a => Upto hi (Q a))
    (hk : ∀ a mid, Q a mid → Reads (Spaced hi mid) (k a) R) : Reads P (p >>= k) R :=
  hp.bind fun a st b st' ⟨mid, hspaced, hmid⟩ hrun => hk a mid hmid st b st' hspaced hrun

/-- From tokens that are spaced from some position on. -/
theorem upto {hi : Pos} {C : Pos → Prop} (h : ∀ mid, C mid → Reads (Spaced hi mid) p Q) :
    Reads (Upto hi C) p Q :=
  fun st a st' ⟨mid, hspaced, hmid⟩ => h mid hmid st a st' hspaced

/-- Looking at the tokens first does no harm. -/
theorem observe (hp : Observes p) (hk : ∀ a, Reads P (k a) R) : Reads P (p >>= k) R :=
  bind hp.reads hk

/-- Whatever the first reader does. -/
theorem anyway (hk : ∀ a, Reads (fun _ => True) (k a) R) : Reads P (p >>= k) R :=
  bind (Q := fun _ _ => True) (fun _ _ _ _ _ => trivial) hk

/-- A fact that goes with the tokens can be taken out of the condition. -/
theorem assume (h : φ → Reads P p Q) : Reads (fun ts => φ ∧ P ts) p Q :=
  fun st a st' hst => h hst.1 st a st' hst.2

end Reads

end

/-- What a reader of all tokens gives is what it reads from them. -/
theorem Parse.of_run {α : Type} {P : List Token → Prop} {Q : α → Prop} {p : Rules → Parse α}
    {tokens : List Token} {a : α} (hp : ∀ depth, Reads P (p (rules depth)) fun a _ => Q a)
    (htokens : P tokens) (h : run p tokens = .ok a) : Q a := by
  obtain ⟨r, hrun, heq⟩ := ok_of_bind h
  cases heq
  exact hp _ _ r.1 r.2 htokens hrun

/-! ## Looking at the next token -/

namespace Parse

theorem observes_peek : Observes peek := by
  intro st t st' hrun
  obtain ⟨_ | ⟨u, us⟩, left, level⟩ := st <;> cases hrun <;> rfl

theorem observes_pure {α : Type} (a : α) : Observes (pure a : Parse α) := by
  intro st b st' hrun
  cases hrun
  rfl

theorem observes_bind {α β : Type} {p : Parse α} {k : α → Parse β} (hp : Observes p)
    (hk : ∀ a, Observes (k a)) : Observes (p >>= k) := by
  intro st b st' hrun
  obtain ⟨a, mid, ha, hb⟩ := run_bind hrun
  exact (hk a mid b st' hb).trans (hp st a mid ha)

theorem observes_map {α β : Type} {p : Parse α} {f : α → β} (h : Observes p) :
    Observes (do return f (← p)) :=
  observes_bind h fun _ => observes_pure _

theorem observes_kind : Observes kind := observes_map observes_peek

theorem observes_pos : Observes pos := observes_map observes_peek

theorem observes_atOp (o : Op) : Observes (atOp o) := observes_map observes_kind

theorem observes_atKeyword (k : Keyword) : Observes (atKeyword k) := observes_map observes_kind

theorem observes_atIdent : Observes atIdent := observes_map observes_kind

theorem observes_atEnd : Observes atEnd := observes_map observes_kind

theorem next_of_peek {st st' : ParseState} {t : Token} (hrun : peek st = .ok (t, st')) :
    t.Next st'.tokens := by
  obtain ⟨_ | ⟨u, us⟩, left, level⟩ := st <;> cases hrun <;> rfl

theorem eq_of_next {t u : Token} {ts : List Token} (ht : t.Next ts) (hu : u.Next ts) : t = u :=
  ht.symm.trans hu

end Parse

namespace Reads

open Parse

variable {α β : Type} {P : List Token → Prop} {Q : α → List Token → Prop} {k : Unit → Parse α}
  {hi lo : Pos} {t : Token}

theorem unexpected {P : List Token → Prop} : Reads P (Parse.unexpected : Parse α) Q :=
  observe observes_pos fun _ => throw

theorem unexpected_bind {R : β → List Token → Prop} {P : List Token → Prop} {k : α → Parse β} :
    Reads P (Parse.unexpected >>= k) R :=
  bind (unexpected (Q := fun _ _ => False)) fun _ _ _ _ h => h.elim

/-- After a look at the next token, the rest knows which one it is. -/
theorem peek {k : Token → Parse α} (h : ∀ t, Reads (fun ts => P ts ∧ t.Next ts) (k t) Q) :
    Reads P (Parse.peek >>= k) Q := by
  refine bind (fun st t st' hst hrun => ?_) h
  rw [observes_peek st t st' hrun]
  exact ⟨hst, observes_peek st t st' hrun ▸ next_of_peek hrun⟩

/-- What is read off the next token. -/
theorem readOff {f : Token → β} {k : β → Parse α}
    (h : ∀ t, Reads (fun ts => P ts ∧ t.Next ts) (k (f t)) Q) :
    Reads P ((do return f (← Parse.peek)) >>= k) Q := by
  rw [bind_assoc]
  exact Reads.peek fun t => Reads.pure_bind (h t)

/-- There always is a next token. -/
theorem of_next {p : Parse α} (h : ∀ t : Token, Reads (fun ts => P ts ∧ t.Next ts) p Q) :
    Reads P p Q :=
  fun st a st' hst => h (st.tokens.headD ⟨0, .eof, []⟩) st a st' ⟨hst, rfl⟩

/-- What was seen of the next token is not needed. -/
theorem forget {p : Parse α} (h : Reads P p Q) : Reads (fun ts => P ts ∧ t.Next ts) p Q :=
  h.weaken fun _ hts => hts.1

/-- Passing over a token keeps the bound on what follows. -/
theorem advance (h : Reads (Spaced hi lo) (k ()) Q) :
    Reads (Spaced hi lo) (Parse.advance >>= k) Q := by
  refine bind (fun st u st' hst hrun => ?_) fun _ => h
  cases hrun
  exact hst.tail

/-- Passing over the token that was seen. -/
theorem take (hkind : t.kind ≠ .eof)
    (h : t.Sound → lo ≤ t.pos → t.pos ≤ hi → Reads (Spaced hi t.stop) (k ()) Q) :
    Reads (fun ts => Spaced hi lo ts ∧ t.Next ts) (Parse.advance >>= k) Q := by
  intro st a st' hst hrun
  obtain ⟨u, mid, hu, ha⟩ := run_bind hrun
  obtain ⟨hspaced, hnext⟩ := hst
  obtain ⟨tokens, left, level⟩ := st
  cases tokens with
  | nil =>
    cases hnext
    exact absurd rfl hkind
  | cons u us =>
    have hut : u = t := hnext
    subst hut
    cases hu
    rcases hspaced with ⟨heof, -⟩ | ⟨hsound, hlo, hhi, hrest⟩
    · exact absurd heof hkind
    · exact h hsound hlo hhi _ a st' hrest ha

end Reads

/-! ## Single tokens -/

/-- A name stands between two positions. -/
structure Ident.Fits (lo : Pos) (id : Ident) (hi : Pos) : Prop where
  le_pos : lo ≤ id.pos
  pos_lt : id.pos < id.stop
  stop_le : id.stop ≤ hi

namespace Parse

variable {hi lo : Pos}

/-- A token of the right kind is passed over. -/
theorem expect_next {t : Token} (kind : TokenKind) (hkind : kind ≠ .eof) :
    Reads (fun ts => Spaced hi lo ts ∧ t.Next ts) (do
      let t ← peek
      if t.kind == kind then
        advance
        pure t.pos
      else unexpected) fun start => Upto hi fun mid =>
        t.kind = kind ∧ t.Sound ∧ start = t.pos ∧ lo ≤ t.pos ∧ t.pos ≤ hi ∧ mid = t.stop := by
  refine Reads.peek fun u => ?_
  split
  · next hu =>
    have hu : u.kind = kind := beq_iff_eq.mp hu
    refine Reads.weaken (P := fun ts => u = t ∧ Spaced hi lo ts ∧ u.Next ts)
      (Reads.assume fun hut => ?_) fun ts hts => ⟨eq_of_next hts.2 hts.1.2, hts.1.1, hts.2⟩
    subst hut
    exact Reads.take (by simp [hu, hkind]) fun hsound hlo hhi => .pure fun ts hts =>
      ⟨u.stop, hts, hu, hsound, rfl, hlo, hhi, rfl⟩
  · exact Reads.unexpected

/-- Reading an operator gives its position, and what follows starts where it ends. -/
theorem expectOp_next {t : Token} (o : Op) :
    Reads (fun ts => Spaced hi lo ts ∧ t.Next ts) (expectOp o) fun start => Upto hi fun mid =>
      start = t.pos ∧ lo ≤ start ∧ start < mid ∧ start + o.text.length = mid := by
  refine (expect_next (.op o) nofun).strengthen
    fun start ts ⟨mid, hts, hkind, hsound, hstart, hlo, _, hmid⟩ => ⟨mid, hts, hstart, ?_⟩
  have hlt := hsound.pos_lt_stop (by simp [hkind])
  subst hstart hmid
  rw [Token.Sound, hkind] at hsound
  exact ⟨hlo, hlt, congrArg (t.pos + ·) hsound.symm⟩

/-- Reading a keyword gives its position, and what follows starts where it ends. -/
theorem expectKeyword_next {t : Token} (k : Keyword) :
    Reads (fun ts => Spaced hi lo ts ∧ t.Next ts) (expectKeyword k) fun start => Upto hi fun mid =>
      start = t.pos ∧ lo ≤ start ∧ start ≤ hi ∧ start < mid ∧
        ∃ text, (k, text) ∈ Keyword.spellings ∧ start + text.length = mid := by
  refine (expect_next (.keyword k) nofun).strengthen
    fun start ts ⟨mid, hts, hkind, hsound, hstart, hlo, hhi, hmid⟩ => ⟨mid, hts, hstart, ?_⟩
  have hlt := hsound.pos_lt_stop (by simp [hkind])
  subst hstart hmid
  rw [Token.Sound, hkind] at hsound
  exact ⟨hlo, hhi, hlt, t.text, Keyword.mem_spellings_of_ofText? hsound, rfl⟩

theorem expectOp_reads (o : Op) : Reads (Spaced hi lo) (expectOp o) fun start =>
    Upto hi fun mid => lo ≤ start ∧ start < mid ∧ start + o.text.length = mid :=
  Reads.of_next fun _ => (expectOp_next o).strengthen
    fun _ _ ⟨mid, hts, h⟩ => ⟨mid, hts, h.2⟩

/-- The closing brace that ends what may have ended just before it. -/
theorem expectBrace_reads {Q : Pos → Prop} :
    Reads (UptoBrace hi Q) (expectOp .rbrace) fun close => Upto hi fun mid =>
      mid = close + 1 ∧ ∃ stop, Q stop ∧ stop ≤ close + 1 := by
  have hlength : (Op.text .rbrace).length = 1 := by decide
  intro st close st' hst hrun
  rcases hst with ⟨mid, hts, hq⟩ | ⟨t, mid, hnext, hkind, hts, hmid, hq⟩
  · obtain ⟨mid', hts', hle, -, hstop⟩ := expectOp_reads .rbrace st close st' hts hrun
    exact ⟨mid', hts', by lia, mid, hq, by lia⟩
  · obtain ⟨mid', hts', rfl, -, -, hstop⟩ := expectOp_next .rbrace st close st' ⟨hts, hnext⟩ hrun
    exact ⟨mid', hts', by lia, _, hq, Nat.le_refl _⟩

theorem expectKeyword_reads (k : Keyword) : Reads (Spaced hi lo) (expectKeyword k) fun start =>
    Upto hi fun mid => lo ≤ start ∧ start ≤ hi ∧ start < mid ∧
      ∃ text, (k, text) ∈ Keyword.spellings ∧ start + text.length = mid :=
  Reads.of_next fun _ => (expectKeyword_next k).strengthen
    fun _ _ ⟨mid, hts, h⟩ => ⟨mid, hts, h.2⟩

theorem ident_reads : Reads (Spaced hi lo) ident fun id => Upto hi (id.Fits lo) := by
  refine Reads.peek fun t => ?_
  split
  · next hkind =>
    have hkind : t.kind ≠ .eof := by simp [beq_iff_eq.mp hkind]
    exact Reads.take hkind fun hsound hlo _ => .pure fun ts hts =>
      ⟨t.stop, hts, hlo, hsound.pos_lt_stop hkind, Nat.le_refl _⟩
  · exact Reads.unexpected

/-- After a look at the kind of the next token, the rest knows the token. -/
theorem kind_reads {α : Type} {P : List Token → Prop} {k : TokenKind → Parse α}
    {Q : α → List Token → Prop}
    (h : ∀ t : Token, Reads (fun ts => P ts ∧ t.Next ts) (k t.kind) Q) :
    Reads P (kind >>= k) Q :=
  Reads.readOff h

theorem pos_reads {α : Type} {P : List Token → Prop} {k : Pos → Parse α} {Q : α → List Token → Prop}
    (h : ∀ t : Token, Reads (fun ts => P ts ∧ t.Next ts) (k t.pos) Q) :
    Reads P (pos >>= k) Q :=
  Reads.readOff h

/-- A keyword that the next token is or is not. -/
theorem atKeyword_next {α : Type} {P : List Token → Prop} {t : Token} {w : Keyword}
    {k : Bool → Parse α} {Q : α → List Token → Prop}
    (htrue : t.kind = .keyword w → Reads (fun ts => P ts ∧ t.Next ts) (k true) Q)
    (hfalse : Reads (fun ts => P ts ∧ t.Next ts) (k false) Q) :
    Reads (fun ts => P ts ∧ t.Next ts) (atKeyword w >>= k) Q := by
  have hat : Reads (fun ts => P ts ∧ t.Next ts) (atKeyword w) fun b ts =>
      (b = true → t.kind = .keyword w) ∧ P ts ∧ t.Next ts :=
    kind_reads fun u => .pure fun ts hts =>
      ⟨fun hb => eq_of_next hts.1.2 hts.2 ▸ beq_iff_eq.mp hb, hts.1⟩
  refine hat.bind fun b => Reads.assume fun hb => ?_
  cases b with
  | true => exact htrue (hb rfl)
  | false => exact hfalse

/-- The end of a statement is no later than the end of the text. -/
theorem endStatement_reads {α : Type} {k : Unit → Parse α} {Q : α → List Token → Prop}
    (h : lo ≤ hi → Reads (Spaced hi lo) (k ()) Q) :
    Reads (Spaced hi lo) (endStatement >>= k) Q := by
  have hend : Reads (Spaced hi lo) endStatement fun _ ts => lo ≤ hi ∧ Spaced hi lo ts := by
    refine kind_reads fun t => ?_
    have hbound {ts : List Token} (hkind : t.kind ≠ .eof) (hts : Spaced hi lo ts ∧ t.Next ts) :
        lo ≤ hi ∧ Spaced hi lo ts := by
      obtain ⟨hlo, hhi⟩ := hts.1.of_next hts.2 hkind
      exact ⟨Nat.le_trans hlo hhi, hts.1⟩
    split
    · next hkind =>
      refine .pure fun ts hts => hbound (fun heof => ?_) hts
      simp [heof] at hkind
    · split
      · next hkind =>
        intro st u st' hst hrun
        cases hrun
        have hkind : t.kind = .op .semicolon := beq_iff_eq.mp hkind
        have hlo := hbound (by simp [hkind]) hst
        exact ⟨hlo.1, hlo.2.tail⟩
      · exact Reads.unexpected
  exact hend.bind fun _ => Reads.assume h

theorem observes_atComma (close : Op) : Observes (atComma close) := by
  intro st b st' hrun
  obtain ⟨k, mid, hk, hb⟩ := run_bind hrun
  have hsame := observes_kind st k mid hk
  split at hb
  · cases hb
    exact hsame
  · split at hb
    · cases hb
      exact hsame
    · exact (Reads.unexpected (P := fun _ => True) (Q := fun _ _ => False) mid b st' trivial hb).elim

/-! ## Levels -/

/-- A change of the state that leaves the tokens alone. -/
theorem observes_modify {f : ParseState → ParseState} (h : ∀ st, (f st).tokens = st.tokens) :
    Observes (modify f : Parse Unit) := by
  intro st u st' hrun
  cases hrun
  exact h st

theorem observes_get : Observes (get : Parse ParseState) := by
  intro st u st' hrun
  cases hrun
  rfl

variable {α : Type} {P : List Token → Prop} {Q : α → List Token → Prop} {p : Parse α}

theorem nested_reads (h : Reads P p Q) : Reads P (nested p) Q := by
  refine Reads.observe (observes_modify fun _ => rfl) fun _ => h.bind fun a => ?_
  exact Reads.observe (observes_modify fun _ => rfl) fun _ => .pure fun _ hts => hts

theorem inHeader_reads (h : Reads P p Q) : Reads P (inHeader p) Q := by
  refine Reads.observe observes_get fun st => ?_
  refine Reads.observe (observes_modify fun _ => rfl) fun _ => h.bind fun a => ?_
  exact Reads.observe (observes_modify fun _ => rfl) fun _ => .pure fun _ hts => hts

/-! ## Repetitions -/

/-- What holds after a step of a repetition. -/
def Step.Holds {σ : Type} (I D : σ → List Token → Prop) (ts : List Token) : Step σ → Prop
  | .more s => I s ts
  | .done s => D s ts

/-- A repetition keeps its invariant `I` as long as it goes on, and leaves `D` when it ends. -/
theorem repeated_reads {σ : Type} {P : List Token → Prop} {I D : σ → List Token → Prop} {init : σ}
    {step : σ → Parse (Step σ)} (hinit : ∀ ts, P ts → I init ts)
    (h : ∀ s, Reads (I s) (step s) fun next ts => next.Holds I D ts) :
    Reads P (repeated init step) D := by
  have hfor (n : Nat) : ∀ s, Reads (I s) (repeatFor step n s) D := by
    induction n with
    | zero => exact fun s => Reads.throw
    | succ n ih =>
      refine fun s => (h s).bind fun next => ?_
      cases next with
      | more s => exact ih s
      | done s => exact .pure fun _ hts => hts
  exact Reads.observe observes_get fun st => (hfor _ init).weaken hinit

/-- Items are read as long as a test holds, collected in reverse. -/
theorem many_reads {I J : List α → List Token → Prop} {test : Parse Bool} {item : Parse α}
    (hinit : ∀ ts, P ts → I [] ts)
    (htest : ∀ acc, Reads (I acc) test fun b ts => if b then J acc ts else I acc ts)
    (hitem : ∀ acc, Reads (J acc) item fun a => I (a :: acc)) :
    Reads P (many test item) fun as => I as.reverse := by
  refine Reads.bind (Q := I) (repeated_reads (I := I) hinit fun acc => ?_) fun acc =>
    .pure fun ts hts => ?_
  · refine (htest acc).bind fun b => ?_
    cases b with
    | false => exact .pure fun _ hts => hts
    | true => exact (hitem acc).bind fun a => .pure fun _ hts => hts
  · rw [List.reverse_reverse]
    exact hts

end Parse

/-! ## Items one after the other -/

/-- Items between two positions, each from where the one before it ends. -/
def InTurn {α : Type} (Fit : Pos → α → Pos → Prop) : Pos → List α → Pos → Prop
  | lo, [], hi => lo = hi
  | lo, a :: as, hi => ∃ mid, Fit lo a mid ∧ InTurn Fit mid as hi

theorem InTurn.concat {α : Type} {Fit : Pos → α → Pos → Prop} {as : List α} {a : α}
    {lo mid hi : Pos} (h : InTurn Fit lo as mid) (ha : Fit mid a hi) : InTurn Fit lo (as ++ [a]) hi := by
  induction as generalizing lo with
  | nil =>
    cases h
    exact ⟨hi, ha, rfl⟩
  | cons b bs ih =>
    obtain ⟨next, hb, hbs⟩ := h
    exact ⟨next, hb, ih hbs⟩

theorem InTurn.le {α : Type} {Fit : Pos → α → Pos → Prop} {as : List α} {lo hi : Pos}
    (h : InTurn Fit lo as hi) (hle : ∀ lo a hi, Fit lo a hi → lo ≤ hi) : lo ≤ hi := by
  induction as generalizing lo with
  | nil => exact Nat.le_of_eq h
  | cons a as ih =>
    obtain ⟨mid, ha, has⟩ := h
    exact Nat.le_trans (hle lo a mid ha) (ih has)

/-- What holds where each item ends, and where the first one starts, holds at the end. -/
theorem InTurn.last {α : Type} {Fit : Pos → α → Pos → Prop} {as : List α} {lo hi : Pos}
    {P : Pos → Prop} (h : InTurn Fit lo as hi) (hlo : P lo)
    (hends : ∀ lo a hi, Fit lo a hi → P hi) : P hi := by
  induction as generalizing lo with
  | nil => exact h ▸ hlo
  | cons a as ih =>
    obtain ⟨mid, ha, has⟩ := h
    exact ih has (hends lo a mid ha)

theorem InTurn.imp {α : Type} {Fit Fit' : Pos → α → Pos → Prop} {as : List α} {lo hi : Pos}
    (h : InTurn Fit lo as hi) (himp : ∀ lo a hi, Fit lo a hi → Fit' lo a hi) :
    InTurn Fit' lo as hi := by
  induction as generalizing lo with
  | nil => exact h
  | cons a as ih =>
    obtain ⟨mid, ha, has⟩ := h
    exact ⟨mid, himp lo a mid ha, ih has⟩

/-- One more item in front of those that are collected backwards. -/
theorem InTurn.collect {α : Type} {Fit : Pos → α → Pos → Prop} {acc : List α} {a : α}
    {lo mid hi : Pos} (h : InTurn Fit lo acc.reverse mid) (ha : Fit mid a hi) :
    InTurn Fit lo (a :: acc).reverse hi := by
  rw [List.reverse_cons]
  exact h.concat ha

/-- Items were collected in reverse. -/
def Collected {α : Type} (hi : Pos) (Fit : Pos → α → Pos → Prop) (lo : Pos) (acc : List α) :
    List Token → Prop :=
  Upto hi (InTurn Fit lo acc.reverse)

namespace Parse

variable {α : Type} {hi lo : Pos} {Fit : Pos → α → Pos → Prop}

/-- Items are collected one after the other. -/
theorem collect_reads (Fit : Pos → α → Pos → Prop) {step : List α → Parse (Step (List α))}
    (h : ∀ acc mid, InTurn Fit lo acc.reverse mid → Reads (Spaced hi mid) (step acc) fun next ts =>
      next.Holds (Collected hi Fit lo) (Collected hi Fit lo) ts) :
    Reads (Spaced hi lo) (repeated [] step) fun acc => Upto hi (InTurn Fit lo acc.reverse) :=
  repeated_reads (I := Collected hi Fit lo) (fun _ hts => ⟨lo, hts, rfl⟩) fun acc =>
    Reads.upto (h acc)

variable {item : Parse α}
  (hitem : ∀ mid, Reads (Spaced hi mid) item fun a => Upto hi (Fit mid a))
include hitem

theorem concat_reads (acc : List α) :
    Reads (Collected hi Fit lo acc) item fun a => Collected hi Fit lo (a :: acc) := by
  refine Reads.upto fun mid hacc => (hitem mid).strengthen fun a ts ⟨mid', hts, ha⟩ => ?_
  exact ⟨mid', hts, hacc.collect ha⟩

theorem many_inTurn {test : Parse Bool} (htest : Observes test) :
    Reads (Spaced hi lo) (many test item) fun as => Upto hi (InTurn Fit lo as) := by
  have hmany := many_reads (I := Collected hi Fit lo)
    (fun ts (hts : Spaced hi lo ts) => ⟨lo, hts, rfl⟩)
    (fun acc => htest.reads.strengthen fun b ts hts => by cases b <;> exact hts)
    (concat_reads hitem)
  simpa only [Collected, List.reverse_reverse] using hmany

/-- Items between commas come one after the other, and there is at least one. -/
theorem commaSeparated_inTurn :
    Reads (Spaced hi lo) (commaSeparated item) fun as =>
      Upto hi fun mid => as ≠ [] ∧ InTurn Fit lo as mid := by
  refine (hitem lo).then_ fun a mid ha => ?_
  have hnext (mid : Pos) :
      Reads (Spaced hi mid) (do advance; item) fun a => Upto hi (Fit mid a) :=
    Reads.advance (hitem mid)
  refine (many_inTurn hnext (observes_atOp _)).then_ fun as mid' has => .pure fun ts hts => ?_
  exact ⟨mid', hts, List.cons_ne_nil _ _, mid, ha, has⟩

theorem itemsUntil_inTurn (close : Op) :
    Reads (Spaced hi lo) (itemsUntil close item) fun as => Upto hi (InTurn Fit lo as) := by
  refine (collect_reads Fit fun acc mid hacc => ?_).bind fun acc => .pure fun ts hts => hts
  refine Reads.observe (observes_atOp close) fun b => Reads.observe observes_atEnd fun e => ?_
  split
  · exact .pure fun ts hts => ⟨mid, hts, hacc⟩
  · refine (hitem mid).then_ fun a mid' ha => Reads.observe (observes_atComma close) fun comma => ?_
    split
    · exact Reads.advance (.pure fun ts hts => ⟨mid', hts, hacc.collect ha⟩)
    · exact .pure fun ts hts => ⟨mid', hts, hacc.collect ha⟩

end Parse

end CaseCover
