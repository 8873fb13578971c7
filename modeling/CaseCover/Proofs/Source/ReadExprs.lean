import CaseCover.Proofs.Source.ReadTypes

/-!
# Where expressions stand

Each rule for expressions gives one that stands where it was read (`Expr.Fits`). The bodies of
function literals are blocks, and in front of the closing brace of a block an empty statement may
start where the brace does: statements up to there are read by `stmtList_reads`, and `block_fits`
puts the braces around them.
-/

namespace CaseCover

open Token (Spaced)

/-! ## Statements one after the other -/

namespace Stmt

theorem statementsOfAll_eq (ss : List Stmt) : statementsOfAll ss = ss.flatMap statements := by
  induction ss with
  | nil => rfl
  | cons s ss ih => rw [statementsOfAll, ih, List.flatMap_cons]

variable {lo mid hi lo' hi' : Pos} {s : Stmt} {ss inner : List Stmt}

namespace Fits

/-- Where a statement starts and ends. -/
theorem between (h : s.Fits lo hi) : lo ≤ s.pos ∧ s.pos ≤ s.stop ∧ s.pos < hi ∧ s.stop ≤ hi :=
  h.laidOut.between s (mem_statements_self h.present)

/-- Nothing inside a statement ends behind it. -/
theorem stop_le (h : s.Fits lo hi) {t : Stmt} (ht : t ∈ s.statements) : t.stop ≤ s.stop :=
  (h.laidOut.nested s (mem_statements_self h.present) t ht).2

theorem all (h : InTurn Stmt.Fits lo ss hi) : LaidOut lo (statementsOfAll ss) hi :=
  statementsOfAll_eq ss ▸ InTurn.laidOut (h.imp fun _ _ _ hs => hs.laidOut)

/-- The last of some statements ends last. -/
theorem stopOfLast (h : InTurn Stmt.Fits lo ss hi) {dflt : Pos} (hdflt : dflt ≤ lo) :
    dflt ≤ stopOfLast dflt ss ∧ stopOfLast dflt ss ≤ hi ∧
      ∀ t ∈ statementsOfAll ss, t.stop ≤ stopOfLast dflt ss := by
  induction ss generalizing lo dflt with
  | nil =>
    cases h
    exact ⟨Nat.le_refl _, hdflt, fun _ ht => nomatch ht⟩
  | cons s ss ih =>
    obtain ⟨mid, hs, hss⟩ := h
    have hsb := hs.between
    obtain ⟨hle, hhi, hrest⟩ := ih hss hsb.2.2.2
    rw [Stmt.stopOfLast]
    refine ⟨by lia, hhi, fun t ht => ?_⟩
    rcases List.mem_append.mp ht with ht | ht
    · exact Nat.le_trans (hs.stop_le ht) hle
    · exact hrest t ht

/-- A statement with what is inside it. -/
theorem of_inner (start : Pos) (hstart : s.pos = start) (hs : s.statements = s :: inner)
    (h : LaidOut lo' inner hi') (hinside : ∀ t ∈ inner, t.stop ≤ s.stop)
    (hle : lo' ≤ hi' → lo ≤ start ∧ start ≤ lo' ∧ start ≤ s.stop ∧ start < hi ∧ hi' ≤ hi ∧
      s.stop ≤ hi) : s.Fits lo hi := by
  subst hstart
  obtain ⟨hlo, hlo', hstop, hlt, hhi', hhi⟩ := hle h.le
  refine ⟨isAbsent_of_mem (hs ▸ List.mem_cons_self), hs ▸ ?_⟩
  exact .cons hs (h.mono hlo' hhi') hinside hlo hstop hlt hhi

/-- A statement from its first token to its last one. -/
theorem of_inside (start stop : Pos) (hstart : s.pos = start) (hstop : s.stop = stop)
    (hs : s.statements = s :: inner) (h : LaidOut lo' inner hi')
    (hle : lo' ≤ hi' → lo ≤ start ∧ start ≤ lo' ∧ hi' ≤ stop ∧ start < stop ∧ stop ≤ hi) :
    s.Fits lo hi := by
  subst hstop
  obtain ⟨hlo, hlo', hhi', hlt, hhi⟩ := hle h.le
  refine of_inner start hstart hs h (fun t ht => ?_) fun _ => by lia
  exact Nat.le_trans (h.between t ht).2.2.2 hhi'

end Fits

end Stmt

namespace Parse

variable {hi lo mid : Pos} {r : Rules} (hr : r.Fitting hi)

/-- A token that is no closing brace comes next. -/
theorem upto_of_uptoBrace {Q : Pos → Prop} {t : Token} {ts : List Token} (h : UptoBrace hi Q ts)
    (hnext : t.Next ts) (hkind : t.kind ≠ .op .rbrace) : Upto hi Q ts := by
  rcases h with h | ⟨u, mid, hu, hbrace, -⟩
  · exact h
  · exact absurd (eq_of_next hnext hu ▸ hbrace) hkind

section

include hr

omit hr in
/-- Statements are read as long as a test holds, which it does not before a closing brace. -/
theorem stmts_reads {test : Parse Bool} {item : Parse Stmt}
    (htest : ∀ P, Reads P test fun b ts =>
      P ts ∧ (b = true → ∃ t : Token, t.Next ts ∧ t.kind ≠ .op .rbrace))
    (hitem : ∀ lo, Reads (Spaced hi lo) item fun s => UptoBrace hi (s.Fits lo)) :
    Reads (Spaced hi lo) (many test item) fun ss => UptoBrace hi (InTurn Stmt.Fits lo ss) := by
  refine Reads.strengthen (many_reads (J := Collected hi Stmt.Fits lo)
    (I := fun acc => UptoBrace hi (InTurn Stmt.Fits lo acc.reverse))
    (fun ts hts => .inl ⟨lo, hts, rfl⟩) (fun acc => ?_) fun acc => ?_) fun ss ts hts => ?_
  · refine (htest _).strengthen fun b ts ⟨hts, hmore⟩ => ?_
    split
    · next hb =>
      obtain ⟨t, hnext, hkind⟩ := hmore hb
      exact upto_of_uptoBrace hts hnext hkind
    · exact hts
  · exact Reads.upto fun mid hacc => (hitem mid).strengthen fun s ts hts =>
      hts.imp fun _ hs => hacc.collect hs
  · rw [List.reverse_reverse] at hts
    exact hts

/-- Statements up to a closing brace or the next clause. -/
theorem stmtList_reads : Reads (Spaced hi lo) (stmtList r) fun ss =>
    UptoBrace hi (InTurn Stmt.Fits lo ss) := by
  refine stmts_reads (fun P => kind_reads fun t => .pure fun ts hts => ?_) hr.stmt
  exact ⟨hts.1, fun hmore => ⟨t, hts.2, fun hbrace => by simp [hbrace] at hmore⟩⟩

end

/-- Statements between braces. -/
theorem block_fits {start close first last : Pos} {ss : List Stmt}
    (hss : InTurn Stmt.Fits first ss last) (hlo : lo ≤ start) (hstart : start < first)
    (hlast : last ≤ close + 1) : (Stmt.block start ss close).Fits lo (close + 1) :=
  .of_inside start (close + 1) rfl rfl rfl (Stmt.Fits.all hss) fun _ => by lia

section

include hr

/-- A block ends at the position that the reader has come to. -/
theorem block_reads : Reads (Spaced hi lo) (block r) fun b =>
    Upto hi fun mid => b.Fits lo mid ∧ b.stop = mid := by
  refine (expectOp_reads _).then_ fun start mid hstart => (stmtList_reads hr).bind fun ss => ?_
  refine expectBrace_reads.then_ fun close mid' ⟨hmid, last, hss, hlast⟩ => .pure fun ts hts => ?_
  subst hmid
  exact ⟨_, hts, block_fits hss hstart.1 hstart.2.1 hlast, rfl⟩

theorem funcTypeOrLiteral_reads :
    Reads (Spaced hi lo) (funcTypeOrLiteral r) fun e => Upto hi (e.Fits lo) := by
  refine (funcType_reads hr).then_ fun t mid ht => Reads.observe (observes_atOp _) fun b => ?_
  split
  · refine (nested_reads (block_reads hr)).then_ fun b mid' ⟨hb, hstop⟩ => .pure fun ts hts => ?_
    have htb := ht.bounds
    have hbb := hb.between
    refine ⟨mid', hts, .of_inside t.pos mid' rfl hstop (ht.inside.append hb.laidOut ht.stop_le) ?_⟩
    lia
  · exact .pure fun ts hts => ⟨mid, hts, ht⟩

/-- An operand: a name, a literal, an expression in parentheses, a function or a type. -/
theorem operand_reads : Reads (Spaced hi lo) (operand r) fun e => Upto hi (e.Fits lo) := by
  refine Reads.peek fun t => ?_
  split
  · exact Reads.forget (ident_reads.then_ fun id mid hid => .pure fun ts hts =>
      ⟨mid, hts, .ofIdent hid⟩)
  · next k hkind =>
    have hkind : t.kind ≠ .eof := by simp [hkind]
    refine Reads.take hkind fun hsound hlo _ => .pure fun ts hts => ⟨t.stop, hts, ?_⟩
    have hlt := hsound.pos_lt_stop hkind
    exact .of_inside t.pos t.stop rfl rfl (LaidOut.nil (Nat.le_refl t.pos)) fun _ => by lia
  · next hkind =>
    have hkind : t.kind ≠ .eof := by simp [hkind]
    refine Reads.take hkind fun hsound hlo _ => ?_
    have hlt := hsound.pos_lt_stop hkind
    refine (nested_reads (expr_within hr)).then_ fun x mid hx => ?_
    refine (expectOp_reads _).then_ fun close mid' hclose => .pure fun ts hts => ⟨mid', hts, ?_⟩
    exact .of_inside t.pos (close + 1) rfl rfl hx fun _ => by lia
  · exact Reads.forget (funcTypeOrLiteral_reads hr)
  · exact Reads.forget (type_reads hr)

/-! ## What is attached to an operand -/

variable {x : Expr} (hx : x.Fits lo mid)
include hx

/-- What follows the point behind an operand: a name, or a type in parentheses. -/
theorem assertion_reads : Reads (Spaced hi mid) (assertion r x) fun e => Upto hi (e.Fits lo) := by
  have hxb := hx.bounds
  refine (expectOp_reads _).then_ fun opening mid₁ hopening => ?_
  refine Reads.observe (observes_atKeyword _) fun b => ?_
  extract_lets +onlyGivenNames finish
  have hfinish (t : Expr) (mid₂ : Pos) (ht : t.Inside mid₁ mid₂) :
      Reads (Spaced hi mid₂) (finish t) fun e => Upto hi (e.Fits lo) := by
    refine (expectOp_reads _).then_ fun close mid₃ hclose => .pure fun ts hts => ⟨mid₃, hts, ?_⟩
    exact .of_inside x.pos (close + 1) rfl rfl (hx.inside.append ht (by lia)) fun _ => by lia
  split
  · exact Reads.advance (Reads.pure_bind (hfinish .absent mid₁ (.absent (Nat.le_refl _))))
  · exact (type_within hr).then_ fun t mid₂ ht => hfinish t mid₂ ht

omit hx in
theorem sliceIndex_reads : Reads (Spaced hi lo) (sliceIndex r) fun e => Upto hi (e.Inside lo) := by
  refine Reads.observe observes_kind fun k => ?_
  split
  · exact .pure fun ts hts => ⟨lo, hts, .absent (Nat.le_refl _)⟩
  · exact expr_within hr

/-- The brackets behind an operand. -/
theorem indexOrSlice_reads : Reads (Spaced hi mid) (indexOrSlice r x) fun e =>
    Upto hi (e.Fits lo) := by
  have hxb := hx.bounds
  refine (expectOp_reads _).then_ fun opening mid₁ hopening => ?_
  refine Reads.observe (observes_atOp _) fun b => ?_
  extract_lets finish rest start
  have hfinish (mid : Pos) : Reads (Spaced hi mid) finish fun close => Upto hi fun mid' =>
      mid ≤ close ∧ close < mid' :=
    Reads.observe (observes_modify fun _ => rfl) fun _ => (expectOp_reads _).strengthen
      fun _ _ ⟨mid', hts, hclose⟩ => ⟨mid', hts, hclose.1, hclose.2.1⟩
  have hrest (first : Expr) (mid₂ : Pos) (hfirst : first.Inside mid₁ mid₂) :
      Reads (Spaced hi mid₂) (rest first) fun e => Upto hi (e.Fits lo) := by
    have hle := LaidOut.le hfirst
    refine Reads.observe (observes_atOp _) fun b => ?_
    split
    · refine Reads.advance ((sliceIndex_reads hr).then_ fun high mid₃ hhigh => ?_)
      have hle' := LaidOut.le hhigh
      have hall := (hx.inside.append hfirst (by lia)).append hhigh (Nat.le_refl _)
      refine Reads.observe (observes_atOp _) fun b => ?_
      split
      · refine Reads.advance ((sliceIndex_reads hr).then_ fun max mid₄ hmax => ?_)
        refine (hfinish mid₄).then_ fun close mid₅ hclose => ?_
        extract_lets
        split
        · exact Reads.throw_bind
        · refine .pure fun ts hts => ⟨mid₅, hts, ?_⟩
          have hle'' := LaidOut.le hmax
          exact .of_inside x.pos (close + 1) rfl rfl (hall.append hmax (Nat.le_refl _))
            fun _ => by lia
      · refine (hfinish mid₃).then_ fun close mid₄ hclose => .pure fun ts hts => ⟨mid₄, hts, ?_⟩
        have hall := hall.append (.nil (Nat.le_refl _)) (Nat.le_refl _)
        exact .of_inside x.pos (close + 1) rfl rfl hall fun _ => by lia
    · refine (collect_reads Expr.Inside fun acc mid hacc => ?_).then_ fun more mid₃ hmore => ?_
      · refine Reads.observe (observes_atOp _) fun b => ?_
        split
        · refine Reads.advance ?_
          refine Reads.observe (observes_atOp _) fun b => Reads.observe observes_atEnd fun e => ?_
          split
          · exact .pure fun ts hts => ⟨mid, hts, hacc⟩
          · exact (type_within hr).then_ fun t mid' ht => .pure fun ts hts =>
              ⟨mid', hts, hacc.collect ht⟩
        · exact .pure fun ts hts => ⟨mid, hts, hacc⟩
      · refine (hfinish mid₃).then_ fun close mid₄ hclose => .pure fun ts hts => ⟨mid₄, hts, ?_⟩
        have hmore := Expr.Inside.all hmore
        have hle' := hmore.le
        have hargs := LaidOut.append hfirst hmore (Nat.le_refl _)
        exact .of_inside x.pos (close + 1) rfl rfl (hx.inside.append hargs (by lia))
          fun _ => by lia
  split
  · exact Reads.unexpected_bind
  · refine Reads.observe (observes_modify fun _ => rfl) fun _ => ?_
    refine Reads.observe (observes_atOp _) fun b => ?_
    split
    · exact Reads.pure_bind (hrest .absent mid₁ (.absent (Nat.le_refl _)))
    · exact (expr_within hr).then_ fun first mid₂ hfirst => hrest first mid₂ hfirst

theorem callArgs_reads : Reads (Spaced hi mid) (callArgs r x) fun e => Upto hi (e.Fits lo) := by
  have hxb := hx.bounds
  refine (expectOp_reads _).then_ fun opening mid₁ hopening => ?_
  let I : List Expr × Pos → List Token → Prop := fun acc => Collected hi Expr.Inside mid₁ acc.1
  refine Reads.bind (nested_reads (repeated_reads (I := I) (D := I)
    (fun ts hts => ⟨mid₁, hts, rfl⟩) fun (acc, dots) => ?_)) fun (acc, dots) => ?_
  · refine Reads.observe (observes_atOp _) fun b => Reads.observe observes_atEnd fun e => ?_
    split
    · exact .pure fun ts hts => hts
    · refine Reads.upto fun mid₂ hacc => (expr_within hr).then_ fun e mid₃ he => ?_
      refine Reads.observe (observes_atOp _) fun b => ?_
      extract_lets +onlyGivenNames finish
      have hfinish (dots mid₄ : Pos) (hle : mid₃ ≤ mid₄) :
          Reads (Spaced hi mid₄) (finish dots) fun next ts => next.Holds I I ts := by
        have hacc := hacc.collect (he.mono (Nat.le_refl _) hle)
        refine Reads.observe (observes_atComma _) fun b => ?_
        split
        · exact Reads.advance (.pure fun ts hts => ⟨mid₄, hts, hacc⟩)
        · exact .pure fun ts hts => ⟨mid₄, hts, hacc⟩
      split
      · refine (expectOp_reads _).then_ fun dots mid₄ hdots => hfinish dots mid₄ ?_
        lia
      · exact Reads.pure_bind (hfinish 0 mid₃ (Nat.le_refl _))
  · refine Reads.upto fun mid₂ hacc => (expectOp_reads _).then_ fun close mid₃ hclose =>
      .pure fun ts hts => ⟨mid₃, hts, ?_⟩
    have hargs := Expr.Inside.all hacc
    have hle := hargs.le
    exact .of_inside x.pos (close + 1) rfl rfl (hx.inside.append hargs (by lia)) fun _ => by lia

omit hx

/-! ## Composite literals -/

/-- A value in a composite literal: an expression, or another literal without a type. -/
theorem elementValue_reads : Reads (Spaced hi lo) (elementValue r) fun e =>
    Upto hi (e.Inside lo) := by
  refine Reads.observe (observes_atOp _) fun b => ?_
  split
  · exact (hr.literalValue lo lo .absent (.inl ⟨rfl, Nat.le_refl _⟩)).strengthen
      fun e ts hts => hts.imp fun _ he => he.within
  · exact expr_within hr

theorem element_reads : Reads (Spaced hi lo) (element r) fun e => Upto hi (e.Inside lo) := by
  refine (elementValue_reads hr).then_ fun key mid hkey => ?_
  refine Reads.observe (observes_atOp _) fun b => ?_
  split
  · exact Reads.advance ((elementValue_reads hr).then_ fun value mid' hvalue => .pure fun ts hts =>
      ⟨mid', hts, LaidOut.append hkey hvalue (Nat.le_refl _)⟩)
  · exact .pure fun ts hts => ⟨mid, hts, hkey⟩

/-- A composite literal, whose type `t` is left out inside another one. -/
theorem literalValueRule_reads {t : Expr} (ht : t = .absent ∧ lo ≤ mid ∨ t.Fits lo mid) :
    Reads (Spaced hi mid) (literalValueRule r t) fun e => Upto hi (e.Fits lo) := by
  refine (expectOp_reads _).then_ fun start mid₁ hstart => ?_
  refine (nested_reads (itemsUntil_inTurn (fun _ => element_reads hr) _)).then_
    fun elements mid₂ helements => ?_
  refine (expectOp_reads _).then_ fun close mid₃ hclose => .pure fun ts hts => ⟨mid₃, hts, ?_⟩
  have hall := Expr.Inside.all helements
  rcases ht with ⟨rfl, hle⟩ | ht
  · exact .of_inside start (close + 1) rfl rfl hall fun _ => by lia
  · have htb := ht.bounds
    have hpos : (Expr.composite t start elements close).pos = t.pos := by
      cases t <;> first | rfl | exact absurd htb.2.1 (Nat.lt_irrefl 0)
    exact .of_inside t.pos (close + 1) hpos rfl (ht.inside.append hall (by lia)) fun _ => by lia

/-! ## Operators -/

/-- An operand with all that is attached to it, from left to right. -/
theorem primary_reads {first : Option Expr} (hfirst : OptFits Expr.Fits lo first mid) :
    Reads (Spaced hi mid) (primary r first) fun e => Upto hi (e.Fits lo) := by
  unfold primary
  extract_lets +onlyGivenNames rest
  have hrest (x : Expr) : Reads (Upto hi (x.Fits lo)) (rest x) fun e => Upto hi (e.Fits lo) := by
    refine repeated_reads (I := fun x : Expr => Upto hi (x.Fits lo)) (fun ts hts => hts) fun x => ?_
    refine Reads.upto fun mid hx => ?_
    have hmore {p : Parse Expr} (hp : Reads (Spaced hi mid) p fun e => Upto hi (e.Fits lo)) :
        Reads (Spaced hi mid) (do return Step.more (← p)) fun next ts =>
          next.Holds (fun x : Expr => Upto hi (x.Fits lo)) (fun x => Upto hi (x.Fits lo)) ts :=
      hp.bind fun e => .pure fun ts hts => hts
    refine Reads.observe observes_kind fun k => ?_
    split
    · refine Reads.advance (Reads.observe observes_atIdent fun b => ?_)
      split
      · refine ident_reads.then_ fun sel mid' hsel => .pure fun ts hts => ⟨mid', hts, ?_⟩
        have hxb := hx.bounds
        have hselb := hsel.bounds
        exact .of_inside x.pos sel.stop rfl rfl hx.inside fun _ => by lia
      · refine Reads.observe (observes_atOp _) fun b => ?_
        split
        · exact hmore (assertion_reads hr hx)
        · exact Reads.unexpected
    · exact hmore (indexOrSlice_reads hr hx)
    · exact hmore (callArgs_reads hr hx)
    · refine Reads.observe observes_get fun st => ?_
      split
      · extract_lets
        split
        · exact Reads.unexpected_bind
        · exact hmore (hr.literalValue lo mid x (.inr hx))
      · exact .pure fun ts hts => ⟨mid, hts, hx⟩
    · exact .pure fun ts hts => ⟨mid, hts, hx⟩
  cases first with
  | some x => exact Reads.pure_bind ((hrest x).weaken fun ts hts => ⟨mid, hts, hfirst.2 x rfl⟩)
  | none =>
    refine (operand_reads hr).bind fun x => (hrest x).weaken fun ts hts => hts.imp fun _ hx => ?_
    exact hx.mono hfirst.1 (Nat.le_refl _)

omit hr in
/-- Moving the arrow into a channel type moves its start. -/
theorem receiveType_fits {start : Pos} {x c : Expr} (h : receiveType start x = some c) :
    c.pos = start ∧ c.stop = x.stop ∧ c.statements = x.statements := by
  induction start, x using receiveType.induct generalizing c with
  | case1 start pos value =>
    cases h
    exact ⟨rfl, rfl, rfl⟩
  | case2 start _ pos dir inner ih =>
    rw [receiveType] at h
    obtain ⟨c', hc', rfl⟩ := Option.map_eq_some_iff.mp h
    exact ⟨rfl, (ih hc').2⟩
  | case3 => simp [receiveType] at h
  | case4 => simp [receiveType] at h

/-- Operators in front of an operand. -/
theorem unaryRule_reads : Reads (Spaced hi lo) (unaryRule r) fun e => Upto hi (e.Fits lo) := by
  refine Reads.peek fun t => ?_
  -- an operator in front only moves the start
  have hfront {op : Op} {k : Expr → Parse Expr} (hkind : t.kind = .op op)
      (hk : ∀ x mid, (∀ e : Expr, e.pos = t.pos → e.stop = x.stop → e.statements = x.statements →
        e.Fits lo mid) → Reads (Spaced hi mid) (k x) fun e => Upto hi (e.Fits lo)) :
      Reads (fun ts => Spaced hi lo ts ∧ t.Next ts) (do
        advance
        let x ← r.unary
        k x) fun e => Upto hi (e.Fits lo) := by
    have hkind : t.kind ≠ .eof := by simp [hkind]
    refine Reads.take hkind fun hsound hlo _ => (hr.unary _).then_ fun x mid hx => hk x mid ?_
    intro e hpos hstop hstatements
    have hlt := hsound.pos_lt_stop hkind
    have hxb := hx.bounds
    have hin : e.Inside x.pos x.stop := by
      rw [Expr.Inside, hstatements]
      exact hx.inside
    exact .of_inside t.pos x.stop hpos hstop hin fun _ => by lia
  have hprimary : Reads (fun ts => Spaced hi lo ts ∧ t.Next ts) (primary r none) fun e =>
      Upto hi (e.Fits lo) := Reads.forget (primary_reads hr (.none (Nat.le_refl _)))
  split
  · next hkind =>
    exact hfront hkind fun x mid hx => .pure fun ts hts => ⟨mid, hts, hx _ rfl rfl rfl⟩
  · next hkind =>
    refine hfront hkind fun x mid hx => ?_
    split
    · split
      · next c hc =>
        obtain ⟨hpos, hstop, hstatements⟩ := receiveType_fits hc
        exact .pure fun ts hts => ⟨mid, hts, hx c hpos hstop hstatements⟩
      · exact Reads.throw
    · exact .pure fun ts hts => ⟨mid, hts, hx _ rfl rfl rfl⟩
  · next o _ _ hkind =>
    split
    · exact hfront hkind fun x mid hx => .pure fun ts hts => ⟨mid, hts, hx _ rfl rfl rfl⟩
    · exact hprimary
  · exact hprimary

/-- Operators between operands, as far as they bind at least as strongly. -/
theorem binaryRule_reads {first : Option Expr} {strength : Nat}
    (hfirst : OptFits Expr.Fits lo first mid) :
    Reads (Spaced hi mid) (binaryRule r first strength) fun e => Upto hi (e.Fits lo) := by
  unfold binaryRule
  extract_lets +onlyGivenNames rest
  have hrest (x : Expr) : Reads (Upto hi (x.Fits lo)) (rest x) fun e => Upto hi (e.Fits lo) := by
    refine repeated_reads (I := fun x : Expr => Upto hi (x.Fits lo)) (fun ts hts => hts) fun x => ?_
    refine Reads.upto fun mid hx => Reads.observe observes_kind fun k => ?_
    split
    · split
      · exact .pure fun ts hts => ⟨mid, hts, hx⟩
      · refine Reads.advance ((hr.binary mid mid none _ (.none (Nat.le_refl _))).then_
          fun y mid' hy => .pure fun ts hts => ⟨mid', hts, ?_⟩)
        have hxb := hx.bounds
        have hyb := hy.bounds
        exact .of_inside x.pos y.stop rfl rfl (hx.inside.append hy.inside (by lia)) fun _ => by lia
    · exact .pure fun ts hts => ⟨mid, hts, hx⟩
  cases first with
  | some x => exact Reads.pure_bind ((hrest x).weaken fun ts hts => ⟨mid, hts, hfirst.2 x rfl⟩)
  | none =>
    refine (unaryRule_reads hr).bind fun x => (hrest x).weaken fun ts hts => hts.imp fun _ hx => ?_
    exact hx.mono hfirst.1 (Nat.le_refl _)

end

end Parse

end CaseCover
