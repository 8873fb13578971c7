import CaseCover.Proofs.Coverage.PureForm

/-!
# Forms of the expressions that are read

Pure expressions that are read have a form, and the texts in it are those of tokens
(`Expr.hasReadForm_of_parse`). A condition is cut into its operands here, as the comparisons and
disjunctions of a chain are. As long as all operands are pure, the rules take names and literals as
they come. Every other rule gives an expression with an operand that is not pure, so it does not
matter what it reads.

Together with unique readability this makes comparing pure expressions as they are printed the same
as comparing their forms (`printsLike_iff_sameForm`).
-/

namespace CaseCover

open Token (IsWord IsRead)

/-- What stands between binary operators, without the parentheses around it. -/
def Expr.operands : Expr → List Expr
  | .paren _ inner _ => inner.operands
  | .binary x _ y => x.operands ++ y.operands
  | e => [e]

/-- All operands of an expression are pure. -/
def Expr.HasPureOperands (e : Expr) : Prop := ∀ x ∈ e.operands, x.isPure = true

/-- The expression has a form, and the texts in it are those of tokens. -/
def Expr.HasReadForm (e : Expr) : Prop := ∃ f, e.pureForm? = some f ∧ f.IsRead

variable {e x y : Expr} {f : PureForm}

/-- A pure expression is its only operand. -/
theorem Expr.operands_of_isPure (h : e.isPure = true) : e.operands = [e] := by
  cases e <;> first | rfl | cases h

theorem Expr.hasPureOperands_of_isPure (h : e.isPure = true) : e.HasPureOperands := by
  intro x hx
  rw [operands_of_isPure h, List.mem_singleton] at hx
  exact hx ▸ h

theorem Expr.pureForm?_of_selection? (h : e.selection? = some f) : e.pureForm? = some f := by
  cases e <;> first | exact h | cases h

namespace Parse

/-- The names and literals to come are read as such. -/
def Words (ts : List Token) : Prop := ∀ t ∈ ts, IsWord t

/-- If all operands of the expression that was read are pure, they have forms, and the names and
literals to come are read as such. Otherwise nothing is said. -/
def Formed (e : Expr) (ts : List Token) : Prop :=
  e.HasPureOperands → (∀ x ∈ e.operands, x.HasReadForm) ∧ Words ts

variable {α β : Type} {P : List Token → Prop} {R : β → List Token → Prop} {p : Parse α}
  {k : α → Parse β} {r : Rules} {t : Token} {ts : List Token}

/-- Nothing is said of an expression with an operand that is not pure. -/
theorem formed_of_impure (h : ¬ e.HasPureOperands) : Formed e ts := fun hpure => absurd hpure h

/-- An expression that has a form and is its only operand. -/
theorem formed_of_form (hf : e.pureForm? = some f) (hread : f.IsRead) (hts : Words ts)
    (h : e.operands = [e]) : Formed e ts := by
  intro _
  refine ⟨fun x hx => ?_, hts⟩
  rw [h, List.mem_singleton] at hx
  exact hx ▸ ⟨f, hf, hread⟩

/-- A pure expression that was read has a form. -/
theorem Formed.of_isPure (h : Formed e ts) (hpure : e.isPure = true) :
    e.HasReadForm ∧ Words ts := by
  have hone := Expr.operands_of_isPure hpure
  obtain ⟨hforms, hts⟩ := h fun x hx => by
    rw [hone, List.mem_singleton] at hx
    exact hx ▸ hpure
  exact ⟨hforms e (hone ▸ List.mem_singleton_self e), hts⟩

/-! ## Tokens -/

theorem Words.tail (h : Words ts) : Words ts.tail := fun t ht => h t (List.mem_of_mem_tail ht)

theorem Words.of_next (h : Words ts) (hnext : t.Next ts) : IsWord t := by
  cases ts with
  | nil =>
    cases hnext
    exact Token.isWord_eof
  | cons u us =>
    cases hnext
    exact h u List.mem_cons_self

/-- Passing over a token leaves words. -/
theorem advance_words {k : Unit → Parse β} (h : Reads Words (k ()) R) :
    Reads Words (advance >>= k) R := by
  refine Reads.bind (Q := fun _ => Words) (fun st u st' hst hrun => ?_) fun _ => h
  cases hrun
  exact hst.tail

theorem expectOp_words (o : Op) : Reads Words (expectOp o) fun _ => Words := by
  refine Reads.peek fun t => ?_
  split
  · exact Reads.forget (advance_words (.pure fun _ hts => hts))
  · exact Reads.unexpected

/-- What is read as an identifier is spelled as one. -/
theorem ident_words : Reads Words ident fun id ts => IsRead .ident id.name ∧ Words ts := by
  refine Reads.peek fun t => ?_
  split
  · next hkind =>
    have hkind : t.kind = .ident := beq_iff_eq.mp hkind
    intro st id st' hst hrun
    have hword := hst.1.of_next hst.2 (.inl hkind)
    rw [hkind] at hword
    cases hrun
    exact ⟨hword, hst.1.tail⟩
  · exact Reads.unexpected

/-! ## Expressions that are not pure -/

/-- The reader gives no expression with pure operands. -/
def GivesImpure (p : Parse Expr) : Prop :=
  Reads (fun _ => True) p fun e _ => ¬ e.HasPureOperands

/-- A reader that gives an expression which is not pure and has no operators. -/
theorem givesImpure_pure (h : e.operands = [e]) (hpure : e.isPure = false) :
    GivesImpure (pure e) := by
  refine Reads.pure fun ts _ hall => ?_
  rw [Expr.HasPureOperands, h] at hall
  rw [hall e (List.mem_singleton_self e)] at hpure
  cases hpure

/-- What is not pure need not have a form. -/
theorem GivesImpure.formed {q : Parse Expr} (h : GivesImpure q) : Reads P q Formed :=
  fun st e st' _ hrun => formed_of_impure (h st e st' trivial hrun)

theorem funcType_impure : GivesImpure (funcType r) :=
  Reads.anyway fun _ => Reads.anyway fun _ => Reads.anyway fun _ => givesImpure_pure rfl rfl

/-- A function is not pure, and neither is its type. -/
theorem funcTypeOrLiteral_impure : GivesImpure (funcTypeOrLiteral r) := by
  refine Reads.bind funcType_impure fun t => Reads.bind (Q := fun _ _ => ¬ t.HasPureOperands)
    (fun _ _ _ h _ => h) fun b => ?_
  split
  · exact Reads.anyway fun _ => givesImpure_pure rfl rfl
  · exact .pure fun ts hts => hts

theorem arrayType_impure {start : Pos} {length : Option Expr} :
    GivesImpure (arrayType r start length) := by
  cases length <;>
    exact Reads.anyway fun _ => Reads.anyway fun _ => Reads.anyway fun _ => givesImpure_pure rfl rfl

theorem structType_impure : GivesImpure (structType r) :=
  Reads.anyway fun _ => Reads.anyway fun _ => Reads.anyway fun _ => Reads.anyway fun _ =>
    givesImpure_pure rfl rfl

theorem interfaceType_impure : GivesImpure (interfaceType r) :=
  Reads.anyway fun _ => Reads.anyway fun _ => Reads.anyway fun _ => Reads.anyway fun _ =>
    givesImpure_pure rfl rfl

theorem chanType_impure : GivesImpure (chanType r) := by
  refine Reads.anyway fun _ => Reads.anyway fun _ => ?_
  split
  · refine Reads.anyway fun _ => Reads.anyway fun _ => ?_
    split
    · exact Reads.anyway fun _ => Reads.anyway fun _ => givesImpure_pure rfl rfl
    · exact Reads.anyway fun _ => givesImpure_pure rfl rfl
  · exact Reads.anyway fun _ => Reads.anyway fun _ => Reads.anyway fun _ => givesImpure_pure rfl rfl

theorem assertion_impure : GivesImpure (assertion r x) := by
  refine Reads.anyway fun _ => Reads.anyway fun _ => ?_
  split
  · exact Reads.anyway fun _ => Reads.anyway fun _ => Reads.anyway fun _ =>
      givesImpure_pure rfl rfl
  · exact Reads.anyway fun _ => Reads.anyway fun _ => givesImpure_pure rfl rfl

theorem callArgs_impure : GivesImpure (callArgs r x) :=
  Reads.anyway fun _ => Reads.anyway fun (_, _) => Reads.anyway fun _ => givesImpure_pure rfl rfl

/-- A composite literal is not pure. -/
theorem literalValueRule_impure : GivesImpure (literalValueRule r x) :=
  Reads.anyway fun _ => Reads.anyway fun _ => Reads.anyway fun _ => givesImpure_pure rfl rfl

/-- An indexed expression is not pure, and neither is a generic name with its arguments. -/
theorem indexOrSlice_impure : GivesImpure (indexOrSlice r x) := by
  refine Reads.anyway fun _ => Reads.anyway fun b => ?_
  extract_lets finish rest start
  have hrest (first : Expr) : GivesImpure (rest first) := by
    refine Reads.anyway fun b => ?_
    split
    · refine Reads.anyway fun _ => Reads.anyway fun _ => Reads.anyway fun b => ?_
      split
      · refine Reads.anyway fun _ => Reads.anyway fun _ => Reads.anyway fun _ => ?_
        extract_lets
        split
        · exact Reads.throw_bind
        · exact givesImpure_pure rfl rfl
      · exact Reads.anyway fun _ => givesImpure_pure rfl rfl
    · exact Reads.anyway fun _ => Reads.anyway fun _ => givesImpure_pure rfl rfl
  split
  · exact Reads.unexpected_bind
  · refine Reads.anyway fun _ => Reads.anyway fun b => ?_
    split
    · exact Reads.pure_bind (hrest _)
    · exact Reads.anyway fun _ => hrest _

/-- A type that starts neither with a name nor with a parenthesis has no pure operands. -/
theorem typeRule_impure (hident : t.kind ≠ .ident) (hparen : t.kind ≠ .op .lparen) :
    Reads t.Next (typeRule r) fun o _ => ∀ e, o = some e → ¬ e.HasPureOperands := by
  have hsome {p : Parse Expr} {P : List Token → Prop} (hp : GivesImpure p) :
      Reads P (do return some (← p)) fun o _ => ∀ e, o = some e → ¬ e.HasPureOperands :=
    Reads.bind (hp.weaken fun _ _ => trivial) fun e => .pure fun ts he e' heq =>
      Option.some.inj heq ▸ he
  have hconstant {e : Expr} {P : List Token → Prop} (h : e.operands = [e])
      (hpure : e.isPure = false) :
      Reads P (pure (some e)) fun o _ => ∀ e, o = some e → ¬ e.HasPureOperands :=
    (hsome (givesImpure_pure h hpure) : Reads P (pure (some e)) _)
  refine kind_reads fun u => ?_
  split
  · next hkind => exact fun st o st' hst _ => absurd (eq_of_next hst.1 hst.2 ▸ hkind) hident
  · exact Reads.anyway fun start => hsome arrayType_impure
  · exact hsome structType_impure
  · exact Reads.anyway fun star => Reads.anyway fun t => hconstant rfl rfl
  · exact hsome funcType_impure
  · exact hsome interfaceType_impure
  · exact Reads.anyway fun _ => Reads.anyway fun _ => Reads.anyway fun _ => Reads.anyway fun _ =>
      Reads.anyway fun _ => hconstant rfl rfl
  · exact hsome chanType_impure
  · exact hsome chanType_impure
  · next hkind => exact fun st o st' hst _ => absurd (eq_of_next hst.1 hst.2 ▸ hkind) hparen
  · exact .pure fun ts hts => nofun

/-! ## Pure expressions -/

/-- The recursive rules, as far as pure expressions depend on them. -/
structure Forming (r : Rules) : Prop where
  type : ∀ t : Token, t.kind ≠ .ident → t.kind ≠ .op .lparen →
    Reads t.Next r.type? fun o _ => ∀ e, o = some e → ¬ e.HasPureOperands
  literalValue : ∀ x, GivesImpure (r.literalValue x)
  unary : Reads Words r.unary Formed
  binary : ∀ strength, Reads Words (r.binary none strength) Formed

/-- From an expression that was read on: either its operands are pure, and they have forms, or they
are not, and nothing is known of what comes next. -/
theorem Formed.reads {q : Parse β}
    (h : e.HasPureOperands → (∀ x ∈ e.operands, x.HasReadForm) → Reads Words q R)
    (hother : ¬ e.HasPureOperands → Reads (fun _ => True) q R) : Reads (Formed e) q R := by
  intro st b st' hst hrun
  by_cases hpure : e.HasPureOperands
  · obtain ⟨hforms, hts⟩ := hst hpure
    exact h hpure hforms st b st' hts hrun
  · exact hother hpure st b st' trivial hrun

/-- An expression as `Formed` says, without signs in front of it if it is pure. -/
def Selected (e : Expr) (ts : List Token) : Prop :=
  Formed e ts ∧ (e.isPure = true → e.selection?.isSome = true)

theorem selected_of_impure (h : ¬ e.HasPureOperands) : Selected e ts :=
  ⟨formed_of_impure h, fun hpure => absurd (Expr.hasPureOperands_of_isPure hpure) h⟩

/-- A pure expression without signs is a selection. -/
theorem Selected.of_isPure (h : Selected e ts) (hpure : e.isPure = true) :
    (∃ f, e.selection? = some f ∧ f.IsRead) ∧ Words ts := by
  obtain ⟨⟨f, hf, hread⟩, hts⟩ := h.1.of_isPure hpure
  obtain ⟨g, hg⟩ := Option.isSome_iff_exists.mp (h.2 hpure)
  rw [Expr.pureForm?_of_selection? hg, Option.some.injEq] at hf
  exact ⟨⟨g, hg, hf ▸ hread⟩, hts⟩

theorem selected_selector {id : Ident} (hf : x.selection? = some f) (hread : f.IsRead)
    (hid : IsRead .ident id.name) (hts : Words ts) : Selected (.selector x id) ts := by
  have hselection : (Expr.selector x id).selection? = some (f.select id.name) := by
    rw [Expr.selection?, hf]
    rfl
  have hread' : (f.select id.name).IsRead := by
    refine ⟨hread.root, fun name hname => ?_⟩
    rcases List.mem_append.mp hname with hname | hname
    · exact hread.selected name hname
    · exact List.mem_singleton.mp hname ▸ hid
  refine ⟨formed_of_form (Expr.pureForm?_of_selection? hselection) hread' hts rfl, fun _ => ?_⟩
  rw [hselection]
  rfl

/-- A sign in front of a formed expression gives a formed one. -/
theorem formed_unary {pos : Pos} {o : Op} (h : Formed x ts) : Formed (.unary pos o x) ts := by
  intro hpure
  have hone := hpure _ (List.mem_singleton_self _)
  rw [Expr.isPure, Bool.and_eq_true, Bool.or_eq_true, beq_iff_eq, beq_iff_eq] at hone
  obtain ⟨hsign, hx⟩ := hone
  obtain ⟨⟨f, hf, hread⟩, hts⟩ := h.of_isPure hx
  have hsigned (s : Sign) : (f.signed s).IsRead := ⟨hread.root, hread.selected⟩
  rcases hsign with rfl | rfl
  · exact formed_of_form (by rw [Expr.pureForm?, hf]; rfl) (hsigned .plus) hts rfl hpure
  · exact formed_of_form (by rw [Expr.pureForm?, hf]; rfl) (hsigned .minus) hts rfl hpure

/-- An operator joins formed expressions to a formed one. -/
theorem Formed.binary {o : Op} (hforms : ∀ z ∈ x.operands, z.HasReadForm) (h : Formed y ts) :
    Formed (.binary x o y) ts := by
  intro hall
  obtain ⟨hforms', hts⟩ := h fun z hz => hall z (List.mem_append_right _ hz)
  refine ⟨fun z hz => ?_, hts⟩
  rcases List.mem_append.mp hz with hz | hz
  · exact hforms z hz
  · exact hforms' z hz

/-- A channel type stays one. -/
theorem receiveType_impure {start : Pos} {c : Expr} (h : receiveType start x = some c) :
    c.operands = [c] ∧ c.isPure = false := by
  induction start, x using receiveType.induct generalizing c with
  | case1 start pos value =>
    cases h
    exact ⟨rfl, rfl⟩
  | case2 start _ pos dir inner ih =>
    rw [receiveType] at h
    obtain ⟨c', -, rfl⟩ := Option.map_eq_some_iff.mp h
    exact ⟨rfl, rfl⟩
  | case3 => simp [receiveType] at h
  | case4 => simp [receiveType] at h

theorem GivesImpure.selected {q : Parse Expr} (h : GivesImpure q) : Reads P q Selected :=
  fun st e st' _ hrun => selected_of_impure (h st e st' trivial hrun)

section

variable (hr : Forming r)
include hr

/-- An operand is a selection if it is pure. -/
theorem operand_selected : Reads Words (operand r) Selected := by
  refine Reads.peek fun t => ?_
  split
  · refine Reads.forget (ident_words.bind fun id => .pure fun ts ⟨hid, hts⟩ => ?_)
    exact ⟨formed_of_form (f := ⟨[], .name id.name, []⟩) rfl ⟨hid, nofun⟩ hts rfl, fun _ => rfl⟩
  · next k hkind =>
    intro st e st' ⟨hts, hnext⟩ hrun
    have hword := hts.of_next hnext (.inr ⟨k, hkind⟩)
    rw [hkind] at hword
    cases hrun
    exact ⟨formed_of_form (f := ⟨[], .literal t.text, []⟩) rfl ⟨⟨k, hword⟩, nofun⟩ hts.tail rfl,
      fun _ => rfl⟩
  · refine Reads.forget (advance_words ((nested_reads (hr.binary 1)).bind fun x => ?_))
    refine Formed.reads (fun hpure hforms => ?_) fun himpure => ?_
    · exact (expectOp_words _).bind fun close => .pure fun ts hts => ⟨fun _ => ⟨hforms, hts⟩, nofun⟩
    · exact Reads.anyway fun close => .pure fun ts _ => selected_of_impure himpure
  · exact funcTypeOrLiteral_impure.selected
  · next hident _ hparen _ =>
    have htype :
        Reads (fun ts => Words ts ∧ t.Next ts) (type r) fun e _ => ¬ e.HasPureOperands := by
      refine Reads.bind ((hr.type t hident hparen).weaken fun _ hts => hts.2) fun o => ?_
      cases o with
      | some e => exact .pure fun ts he => he e rfl
      | none => exact Reads.unexpected
    exact htype.strengthen fun e ts he => selected_of_impure he

/-- Of what can be attached to an operand, only selectors keep it pure. -/
theorem primary_selected : Reads Words (primary r none) Selected := by
  unfold primary
  extract_lets +onlyGivenNames rest
  refine (operand_selected hr).bind fun x => ?_
  refine repeated_reads (I := Selected) (fun ts hts => hts) fun x => ?_
  have hmore {q : Parse Expr} {P : List Token → Prop} (hq : GivesImpure q) :
      Reads P (do return Step.more (← q)) fun next ts => next.Holds Selected Selected ts :=
    hq.selected.bind fun e => .pure fun ts hts => hts
  refine Reads.observe observes_kind fun k => ?_
  split
  · -- a name is selected from a pure expression, or the whole is not pure
    by_cases hx : x.isPure = true
    · refine Reads.weaken (Reads.assume fun ⟨f, hf, hread⟩ => ?_) fun ts hts => hts.of_isPure hx
      refine advance_words (Reads.observe observes_atIdent fun b => ?_)
      split
      · exact ident_words.bind fun id => .pure fun ts ⟨hid, hts⟩ =>
          selected_selector hf hread hid hts
      · refine Reads.observe (observes_atOp _) fun b => ?_
        split
        · exact hmore assertion_impure
        · exact Reads.unexpected
    · refine Reads.anyway fun _ => Reads.anyway fun b => ?_
      split
      · refine Reads.anyway fun id => .pure fun ts _ => selected_of_impure fun hall => hx ?_
        exact hall (.selector x id) (List.mem_singleton_self _)
      · refine Reads.anyway fun b => ?_
        split
        · exact hmore assertion_impure
        · exact Reads.unexpected
  · exact hmore indexOrSlice_impure
  · exact hmore callArgs_impure
  · refine Reads.observe observes_get fun st => ?_
    split
    · extract_lets
      split
      · exact Reads.unexpected_bind
      · exact hmore (hr.literalValue x)
    · exact .pure fun ts hts => hts
  · exact .pure fun ts hts => hts

/-- An operand with signs in front of it. -/
theorem unaryRule_formed : Reads Words (unaryRule r) Formed := by
  have hprimary : Reads Words (primary r none) Formed :=
    (primary_selected hr).strengthen fun e ts he => he.1
  refine Reads.peek fun t => Reads.forget ?_
  split
  · exact Reads.anyway fun _ => Reads.anyway fun x => (givesImpure_pure rfl rfl).formed
  · refine Reads.anyway fun _ => Reads.anyway fun x => ?_
    split
    · split
      · next c hc =>
        obtain ⟨hone, hpure⟩ := receiveType_impure hc
        exact (givesImpure_pure hone hpure).formed
      · exact Reads.throw
    · exact (givesImpure_pure rfl rfl).formed
  · split
    · exact advance_words (hr.unary.bind fun x => .pure fun ts hts => formed_unary hts)
    · exact hprimary
  · exact hprimary

/-- Operands with operators between them. -/
theorem binaryRule_formed {strength : Nat} : Reads Words (binaryRule r none strength) Formed := by
  unfold binaryRule
  extract_lets +onlyGivenNames rest
  refine (unaryRule_formed hr).bind fun x => ?_
  refine repeated_reads (I := Formed) (fun ts hts => hts) fun x => ?_
  refine Reads.observe observes_kind fun k => ?_
  split
  · split
    · exact .pure fun ts hts => hts
    · refine Formed.reads (fun hpure hforms => ?_) fun himpure => ?_
      · exact advance_words ((hr.binary _).bind fun y => .pure fun ts hts =>
          Formed.binary hforms hts)
      · refine Reads.anyway fun _ => Reads.anyway fun y => .pure fun ts _ => ?_
        exact formed_of_impure fun hall => himpure fun z hz => hall z (List.mem_append_left _ hz)
  · exact .pure fun ts hts => hts

omit hr in
/-- The rules form expressions at every depth, by induction on its bound. -/
theorem rules_forming (depth : Nat) : Forming (rules depth) := by
  induction depth with
  | zero =>
    exact ⟨fun _ _ _ => Reads.throw, fun _ => Reads.throw, Reads.throw, fun _ => Reads.throw⟩
  | succ depth ih =>
    exact ⟨fun _ hident hparen => typeRule_impure hident hparen, fun _ => literalValueRule_impure,
      unaryRule_formed ih, fun _ => binaryRule_formed ih⟩

end

/-- An expression that is read on its own. -/
theorem soleExpr_formed (hr : Forming r) : Reads Words (soleExpr r) fun e _ =>
    e.HasPureOperands → ∀ x ∈ e.operands, x.HasReadForm := by
  refine (hr.binary 1).bind fun e => ?_
  refine Reads.weaken (P := fun _ => (e.HasPureOperands → ∀ x ∈ e.operands, x.HasReadForm) ∧ True)
    (Reads.assume fun hforms => ?_) fun ts hts => ⟨fun hpure => (hts hpure).1, trivial⟩
  refine Reads.anyway fun t => ?_
  extract_lets finish
  have hfinish : Reads (fun _ => True) (finish ()) fun e _ =>
      e.HasPureOperands → ∀ x ∈ e.operands, x.HasReadForm := by
    refine Reads.anyway fun b => ?_
    split
    · exact .pure fun ts _ => hforms
    · exact Reads.unexpected
  split
  · exact Reads.anyway fun _ => hfinish
  · exact hfinish

end Parse

/-- An expression that was read has forms for its operands, if these are pure. -/
theorem Expr.hasReadForm_of_parse {text : Text} (h : Expr.parse text = .ok e)
    (hpure : e.HasPureOperands) : ∀ x ∈ e.operands, x.HasReadForm := by
  rw [Expr.parse] at h
  split at h
  · cases h
  · next tokens comments hread =>
    exact Parse.of_run (fun depth => Parse.soleExpr_formed (Parse.rules_forming depth))
      (Token.isWord_of_read hread) h hpure

/-! ## Comparing expressions as they are printed -/

/-- The expression is as it is read from a program that is sound: it has a form, the texts in it are
those of tokens, and nothing is selected from a literal. -/
structure Expr.BuiltAs (e : Expr) (f : PureForm) : Prop where
  form : e.pureForm? = some f
  isRead : f.IsRead
  selectsFromName : f.SelectsFromName

/-- Pure expressions of a sound program are printed alike exactly if they have the same signs in
front, the same name or literal at the root and the same names selected from it. Forms do not tell
positions, so blanks and line breaks do not matter. The operands of a condition have such forms once
they are pure. -/
theorem printsLike_iff_sameForm :
    (∀ (a b : Expr) (f g : PureForm), a.BuiltAs f → b.BuiltAs g →
      (a.printsLike b = true ↔
        f.signs = g.signs ∧ f.selected = g.selected ∧ f.root = g.root)) ∧
    ∀ (text : Text) (e : Expr), Expr.parse text = .ok e → e.HasPureOperands →
      ∀ x ∈ e.operands, x.HasReadForm := by
  refine ⟨fun a b f g ha hb => ?_, fun text e h hpure => Expr.hasReadForm_of_parse h hpure⟩
  rw [Expr.printsLike, beq_iff_eq, Expr.text_of_pureForm? ha.form, Expr.text_of_pureForm? hb.form]
  constructor
  · intro htext
    exact PureForm.eq_of_text_eq ha.isRead hb.isRead ha.selectsFromName hb.selectsFromName htext
  · rintro ⟨hsigns, hselected, hroot⟩
    rw [PureForm.text, PureForm.text, hsigns, hselected, hroot]

/-- Blanks do not keep `- x . y` apart from `-x.y`. -/
theorem printsLike_minus_x_y :
    (Expr.unary 1 .sub (.selector (.ident ⟨3, "x"⟩) ⟨7, "y"⟩)).printsLike
        (.unary 1 .sub (.selector (.ident ⟨2, "x"⟩) ⟨4, "y"⟩)) = true ∧
      ∀ x ∈ [Expr.unary 1 .sub (.selector (.ident ⟨3, "x"⟩) ⟨7, "y"⟩)], x.HasReadForm := by
  have hbuilt (p q r : Pos) : (Expr.unary p .sub (.selector (.ident ⟨q, "x"⟩) ⟨r, "y"⟩)).BuiltAs
      ⟨[.minus], .name "x", ["y"]⟩ :=
    ⟨rfl, ⟨⟨0x78, [], _, rfl⟩, fun name h => List.mem_singleton.mp h ▸ ⟨0x79, [], _, rfl⟩⟩, nofun⟩
  refine ⟨(printsLike_iff_sameForm.1 _ _ _ _ (hbuilt 1 3 7) (hbuilt 1 2 4)).mpr ⟨rfl, rfl, rfl⟩, ?_⟩
  refine printsLike_iff_sameForm.2 "- x . y" (.unary 1 .sub (.selector (.ident ⟨3, "x"⟩) ⟨7, "y"⟩))
    (by rfl) fun x hx => ?_
  exact List.mem_singleton.mp hx ▸ rfl

-- with a name selected from a literal the form could not be told from the text
example : (Expr.selector (.literal 1 .int "1") ⟨4, "e5"⟩).printsLike (.literal 1 .float "1.e5") =
    true := by
  decide

end CaseCover
