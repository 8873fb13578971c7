import CaseCover.Proofs.Source.Layout
import CaseCover.Proofs.Source.Reader

/-!
# Where types stand

An expression that was read stands between the position from which it was read and the one up to
which it was read, and the statements inside it stand between its start and its end (`Expr.Fits`).
Of parameters, fields and other parts whose own place is never asked for, only the statements
inside them count (`Expr.Inside`).
-/

namespace CaseCover

open Token (Spaced)

/-! ## Expressions between two positions -/

/-- An expression stands between two positions, and the statements inside it between its start and
its end. -/
structure Expr.Fits (lo : Pos) (e : Expr) (hi : Pos) : Prop where
  le_pos : lo ≤ e.pos
  pos_lt : e.pos < e.stop
  stop_le : e.stop ≤ hi
  inside : LaidOut e.pos e.statements e.stop

/-- The statements inside an expression stand between two positions. -/
def Expr.Inside (lo : Pos) (e : Expr) (hi : Pos) : Prop := LaidOut lo e.statements hi

/-- A statement stands between two positions, and so do the statements inside it. -/
structure Stmt.Fits (lo : Pos) (s : Stmt) (hi : Pos) : Prop where
  present : s.isAbsent = false
  laidOut : LaidOut lo s.statements hi

/-- What was read, if anything was, stands between two positions. -/
def OptFits {α : Type} (Fit : Pos → α → Pos → Prop) (lo : Pos) (o : Option α) (hi : Pos) : Prop :=
  lo ≤ hi ∧ ∀ a, o = some a → Fit lo a hi

section

variable {α : Type} {Fit : Pos → α → Pos → Prop} {lo mid hi lo' hi' : Pos}

theorem OptFits.none (h : lo ≤ hi) : OptFits Fit lo none hi := ⟨h, fun _ ha => nomatch ha⟩

/-- An item that fits, and whose ends are in order. -/
theorem OptFits.some {a : α} (hle : lo ≤ hi) (h : Fit lo a hi) : OptFits Fit lo (some a) hi :=
  ⟨hle, fun _ ha => Option.some.inj ha ▸ h⟩

/-- The statements of items one after the other. -/
theorem InTurn.laidOut {sts : α → List Stmt} {as : List α}
    (h : InTurn (fun lo a hi => LaidOut lo (sts a) hi) lo as hi) :
    LaidOut lo (as.flatMap sts) hi := by
  induction as generalizing lo with
  | nil => exact .nil (Nat.le_of_eq h)
  | cons a as ih =>
    obtain ⟨mid, ha, has⟩ := h
    exact LaidOut.append ha (ih has) (Nat.le_refl _)

end

namespace Ident.Fits

variable {id : Ident} {lo hi lo' hi' : Pos}

theorem mono (h : id.Fits lo hi) (hlo : lo' ≤ lo) (hhi : hi ≤ hi') : id.Fits lo' hi' :=
  ⟨Nat.le_trans hlo h.le_pos, h.pos_lt, Nat.le_trans h.stop_le hhi⟩

theorem bounds (h : id.Fits lo hi) : lo ≤ id.pos ∧ id.pos < id.stop ∧ id.stop ≤ hi :=
  ⟨h.le_pos, h.pos_lt, h.stop_le⟩

theorem le (h : id.Fits lo hi) : lo ≤ hi :=
  Nat.le_trans h.le_pos (Nat.le_trans (Nat.le_of_lt h.pos_lt) h.stop_le)

end Ident.Fits

namespace Expr

theorem statementsOfAll_eq (es : List Expr) : statementsOfAll es = es.flatMap statements := by
  induction es with
  | nil => rfl
  | cons e es ih => rw [statementsOfAll, ih, List.flatMap_cons]

variable {lo mid hi lo' hi' start stop : Pos} {e : Expr}

namespace Fits

theorem bounds (h : e.Fits lo hi) : lo ≤ e.pos ∧ e.pos < e.stop ∧ e.stop ≤ hi :=
  ⟨h.le_pos, h.pos_lt, h.stop_le⟩

theorem mono (h : e.Fits lo hi) (hlo : lo' ≤ lo) (hhi : hi ≤ hi') : e.Fits lo' hi' :=
  ⟨Nat.le_trans hlo h.le_pos, h.pos_lt, Nat.le_trans h.stop_le hhi, h.inside⟩

theorem within (h : e.Fits lo hi) : e.Inside lo hi := LaidOut.mono h.inside h.le_pos h.stop_le

/-- An expression from its first token to its last one. -/
theorem of_inside (start stop : Pos) (hstart : e.pos = start) (hstop : e.stop = stop)
    (h : e.Inside lo' hi')
    (hle : lo' ≤ hi' → lo ≤ start ∧ start ≤ lo' ∧ hi' ≤ stop ∧ start < stop ∧ stop ≤ hi) :
    e.Fits lo hi := by
  subst hstart hstop
  obtain ⟨hlo, hstart, hstop, hlt, hhi⟩ := hle (LaidOut.le h)
  exact ⟨hlo, hlt, hhi, LaidOut.mono h hstart hstop⟩

theorem ofIdent {id : Ident} (h : id.Fits lo hi) : (Expr.ident id).Fits lo hi :=
  ⟨h.le_pos, h.pos_lt, h.stop_le, .nil (Nat.le_of_lt h.pos_lt)⟩

end Fits

namespace Inside

theorem mono (h : e.Inside lo hi) (hlo : lo' ≤ lo) (hhi : hi ≤ hi') : e.Inside lo' hi' :=
  LaidOut.mono h hlo hhi

theorem absent (h : lo ≤ hi) : Expr.absent.Inside lo hi := LaidOut.nil h

theorem all {es : List Expr} (h : InTurn Inside lo es hi) : LaidOut lo (statementsOfAll es) hi :=
  statementsOfAll_eq es ▸ InTurn.laidOut h

end Inside

end Expr

/-- The recursive rules of the grammar read expressions and statements that stand where they were
read. -/
structure Rules.Fitting (hi : Pos) (r : Rules) : Prop where
  type? : ∀ lo, Reads (Spaced hi lo) r.type? fun t => Upto hi (OptFits Expr.Fits lo t)
  binary : ∀ lo mid first strength, OptFits Expr.Fits lo first mid →
    Reads (Spaced hi mid) (r.binary first strength) fun e => Upto hi (e.Fits lo)
  unary : ∀ lo, Reads (Spaced hi lo) r.unary fun e => Upto hi (e.Fits lo)
  literalValue : ∀ lo mid t, (t = .absent ∧ lo ≤ mid ∨ t.Fits lo mid) →
    Reads (Spaced hi mid) (r.literalValue t) fun e => Upto hi (e.Fits lo)
  stmt : ∀ lo, Reads (Spaced hi lo) r.stmt fun s => UptoBrace hi (s.Fits lo)

namespace Parse

variable {hi lo mid : Pos} {r : Rules} (hr : r.Fitting hi)

section

include hr

theorem expr_reads : Reads (Spaced hi lo) (expr r) fun e => Upto hi (e.Fits lo) :=
  hr.binary lo lo none 1 (.none (Nat.le_refl _))

theorem type_reads : Reads (Spaced hi lo) (type r) fun e => Upto hi (e.Fits lo) := by
  refine (hr.type? lo).then_ fun t mid ht => ?_
  cases t with
  | none => exact Reads.unexpected
  | some t => exact .pure fun ts hts => ⟨mid, hts, ht.2 t rfl⟩

theorem expr_within : Reads (Spaced hi lo) (expr r) fun e => Upto hi (e.Inside lo) :=
  (expr_reads hr).strengthen fun _ _ ⟨mid, hts, he⟩ => ⟨mid, hts, he.within⟩

theorem type_within : Reads (Spaced hi lo) (type r) fun e => Upto hi (e.Inside lo) :=
  (type_reads hr).strengthen fun _ _ ⟨mid, hts, he⟩ => ⟨mid, hts, he.within⟩

end

/-! ## Names of types -/

/-- A name, perhaps with a package in front. `first` is the name if it has been read already. -/
theorem typeName_reads {first : Option Ident} (hfirst : OptFits Ident.Fits lo first mid) :
    Reads (Spaced hi mid) (typeName first) fun e => Upto hi (e.Fits lo) := by
  unfold typeName
  extract_lets +onlyGivenNames rest
  have hrest (id : Ident) (mid : Pos) (hid : id.Fits lo mid) :
      Reads (Spaced hi mid) (rest id) fun e => Upto hi (e.Fits lo) := by
    refine Reads.observe (observes_atOp _) fun b => ?_
    split
    · refine Reads.advance (ident_reads.then_ fun sel mid' hsel => .pure fun ts hts => ?_)
      have hidb := hid.bounds
      have hselb := hsel.bounds
      exact ⟨mid', hts, .of_inside id.pos sel.stop rfl rfl (.absent (Nat.le_refl mid))
        fun _ => by lia⟩
    · exact .pure fun ts hts => ⟨mid, hts, .ofIdent hid⟩
  cases first with
  | none =>
    exact ident_reads.then_ fun id mid' hid => hrest id mid' (hid.mono hfirst.1 (Nat.le_refl _))
  | some id => exact Reads.pure_bind (hrest id mid (hfirst.2 id rfl))

section

include hr

/-- A generic type with its arguments in brackets. -/
theorem typeInstance_reads {x : Expr} (hx : x.Fits lo mid) :
    Reads (Spaced hi mid) (typeInstance r x) fun e => Upto hi (e.Fits lo) := by
  refine (expectOp_reads _).then_ fun opening mid₁ hopening => ?_
  refine (nested_reads (itemsUntil_inTurn (fun _ => type_within hr) _)).then_
    fun args mid₂ hargs => ?_
  refine (expectOp_reads _).then_ fun close mid₃ hclose => ?_
  extract_lets
  split
  · exact Reads.throw_bind
  · refine .pure fun ts hts => ⟨mid₃, hts, ?_⟩
    have hxb := hx.bounds
    have hall := hx.inside.append (Expr.Inside.all hargs) (by lia)
    exact .of_inside x.pos (close + 1) rfl rfl hall fun _ => by lia

/-- The name of a type, with its arguments if there are any. -/
theorem qualifiedName_reads {first : Option Ident} (hfirst : OptFits Ident.Fits lo first mid) :
    Reads (Spaced hi mid) (qualifiedName r first) fun e => Upto hi (e.Fits lo) := by
  refine (typeName_reads hfirst).then_ fun x mid₁ hx => ?_
  refine Reads.observe (observes_atOp _) fun b => ?_
  split
  · exact typeInstance_reads hr hx
  · exact .pure fun ts hts => ⟨mid₁, hts, hx⟩

/-- The element type behind the brackets of an array or a slice. -/
theorem arrayType_reads {start : Pos} {length : Option Expr} (hlo : lo ≤ start)
    (hstart : start < mid) (hlength : ∀ e, length = some e → e.Inside start mid) :
    Reads (Spaced hi mid) (arrayType r start length) fun e => Upto hi (e.Fits lo) := by
  unfold arrayType
  extract_lets +onlyGivenNames rest
  have hrest (e : Expr) (mid : Pos) (he : e.Inside start mid) (hstart : start < mid) :
      Reads (Spaced hi mid) (rest e) fun e => Upto hi (e.Fits lo) := by
    refine (expectOp_reads _).then_ fun close mid₁ hclose => ?_
    refine (type_reads hr).then_ fun t mid₂ ht => .pure fun ts hts => ⟨mid₂, hts, ?_⟩
    have htb := ht.bounds
    exact .of_inside start t.stop rfl rfl (he.append ht.inside (by lia)) fun _ => by lia
  cases length with
  | some e => exact Reads.pure_bind (hrest e mid (hlength e rfl) hstart)
  | none =>
    have hread : Reads (Spaced hi mid) (nested do
        if ← atOp .ellipsis then
          let dots ← expectOp .ellipsis
          return .ellipsis dots .absent
        if ← atOp .rbrack then return .absent
        expr r) fun e => Upto hi (e.Inside mid) := by
      refine nested_reads (Reads.observe (observes_atOp _) fun b => ?_)
      extract_lets
      split
      · refine (expectOp_reads _).then_ fun dots mid₁ hdots => .pure fun ts hts => ⟨mid₁, hts, ?_⟩
        exact LaidOut.nil (by lia)
      · refine Reads.observe (observes_atOp _) fun b => ?_
        split
        · exact .pure fun ts hts => ⟨mid, hts, .absent (Nat.le_refl _)⟩
        · exact expr_within hr
    refine hread.then_ fun e mid₁ he => hrest e mid₁ (he.mono (by lia) (Nat.le_refl _)) ?_
    have hle := LaidOut.le he
    lia

/-- What stands in brackets behind a name. -/
theorem arrayOrInstance_reads {id : Ident} (hid : id.Fits lo mid) :
    Reads (Spaced hi mid) (arrayOrInstance r id) fun t => Upto hi (t.2.Inside lo) := by
  have hidb := hid.bounds
  refine (expectOp_reads _).then_ fun start mid₁ hstart => ?_
  refine Reads.observe (observes_atOp _) fun b => ?_
  extract_lets +onlyGivenNames rest
  have hrest (args : List Expr) (trailing : Bool) (mid : Pos)
      (hargs : LaidOut mid₁ (Expr.statementsOfAll args) mid) :
      Reads (Spaced hi mid) (rest (args, trailing)) fun t => Upto hi (t.2.Inside lo) := by
    have hle := hargs.le
    refine (expectOp_reads _).then_ fun close mid₂ hclose => ?_
    match args with
    | [] =>
      refine (type_within hr).then_ fun t mid₃ ht => .pure fun ts hts => ⟨mid₃, hts, ?_⟩
      exact ht.mono (by lia) (Nat.le_refl _)
    | [length] =>
      refine (hr.type? mid₂).then_ fun t mid₃ ht => ?_
      have hle' := ht.1
      cases t with
      | none => exact .pure fun ts hts => ⟨mid₃, hts, hargs.mono (by lia) (by lia)⟩
      | some t =>
        cases trailing with
        | true => exact Reads.throw_bind
        | false =>
          refine .pure fun ts hts => ⟨mid₃, hts, ?_⟩
          have hlength : LaidOut mid₁ (length.statements ++ []) mid := hargs
          rw [List.append_nil] at hlength
          have hall := hlength.append (ht.2 t rfl).within (by lia)
          exact hall.mono (by lia) (Nat.le_refl _)
    | a :: b :: args =>
      exact .pure fun ts hts => ⟨mid₂, hts, hargs.mono (by lia) (by lia)⟩
  split
  · exact Reads.pure_bind (hrest [] false mid₁ (.nil (Nat.le_refl _)))
  · refine Reads.then_ (Q := fun args => InTurn Expr.Inside mid₁ args.1) (nested_reads ?_)
      fun args mid hargs => hrest args.1 args.2 mid (Expr.Inside.all hargs)
    refine (expr_within hr).then_ fun first mid hfirst => ?_
    refine Reads.bind (repeated_reads
      (I := fun args : List Expr × Bool => Upto hi (InTurn Expr.Inside mid₁ args.1))
      (D := fun args : List Expr × Bool => Upto hi (InTurn Expr.Inside mid₁ args.1))
      (fun ts hts => ⟨mid, hts, mid, hfirst, rfl⟩) fun args => ?_) fun args =>
        .pure fun ts hts => hts
    refine Reads.observe (observes_atOp _) fun b => ?_
    split
    · refine Reads.upto fun mid hacc => Reads.advance (Reads.observe (observes_atOp _) fun b => ?_)
      extract_lets
      split
      · exact .pure fun ts hts => ⟨mid, hts, hacc⟩
      · exact (expr_within hr).then_ fun e mid' he =>
          .pure fun ts hts => ⟨mid', hts, hacc.concat he⟩
    · exact .pure fun ts hts => hts

/-- A type of a union, perhaps with a tilde. -/
theorem unionTerm_reads : Reads (Spaced hi lo) (unionTerm r) fun e => Upto hi (e.Inside lo) := by
  refine Reads.observe (observes_atOp _) fun b => ?_
  extract_lets
  split
  · refine (expectOp_reads _).then_ fun tilde mid htilde => (type_within hr).then_ fun t mid' ht =>
      .pure fun ts hts => ⟨mid', hts, ?_⟩
    exact ht.mono (by lia) (Nat.le_refl _)
  · exact type_within hr

/-- The terms of a union, joined by bars. `first` is the first one if it has been read already. -/
theorem unionElem_reads {first : Option Expr} (hfirst : OptFits Expr.Inside lo first mid) :
    Reads (Spaced hi mid) (unionElem r first) fun e => Upto hi (e.Inside lo) := by
  unfold unionElem
  extract_lets +onlyGivenNames rest
  let I (x : Expr) : List Token → Prop := Upto hi (x.Inside lo)
  have hrest (x : Expr) : Reads (I x) (rest x) I := by
    refine repeated_reads (I := I) (fun ts hts => hts) fun x => ?_
    refine Reads.observe (observes_atOp _) fun b => ?_
    split
    · refine Reads.upto fun mid hx => Reads.advance ((unionTerm_reads hr).then_ fun y mid' hy => ?_)
      exact .pure fun ts hts => ⟨mid', hts, LaidOut.append hx hy (Nat.le_refl _)⟩
    · exact .pure fun ts hts => hts
  cases first with
  | some x => exact Reads.pure_bind ((hrest x).weaken fun ts hts => ⟨mid, hts, hfirst.2 x rfl⟩)
  | none =>
    refine (unionTerm_reads hr).bind fun x => (hrest x).weaken fun ts ⟨mid', hts, hx⟩ => ?_
    exact ⟨mid', hts, hx.mono hfirst.1 (Nat.le_refl _)⟩

end

/-! ## Parameters -/

/-- The statements inside the type of a parameter. -/
def Param.statements (p : Param) : List Stmt :=
  match p.type with
  | some t => t.statements
  | none => []

/-- The statements inside a parameter stand between two positions. -/
def Param.Inside (lo : Pos) (p : Param) (hi : Pos) : Prop := LaidOut lo p.statements hi

/-- Handing types out to the names before them loses no statement. -/
theorem statementsOfAll_groupParams {names : List Ident} {ps : List Param} {fields : List Expr}
    (h : groupParams names ps = some fields) :
    Expr.statementsOfAll fields = ps.flatMap Param.statements := by
  induction names, ps using groupParams.induct generalizing fields with
  | case1 =>
    cases h
    rfl
  | case2 => simp [groupParams] at h
  | case3 names id t rest ih =>
    rw [groupParams] at h
    obtain ⟨fields', hfields, rfl⟩ := Option.map_eq_some_iff.mp h
    rw [List.flatMap_cons, ← ih hfields]
    rfl
  | case4 names id rest ih =>
    rw [groupParams] at h
    exact ih h
  | case5 => simp [groupParams] at h

/-- Parameters without names keep their statements. -/
theorem statementsOfAll_bareParams (ps : List Param) :
    Expr.statementsOfAll (bareParams ps) = ps.flatMap Param.statements := by
  induction ps using bareParams.induct with
  | case1 => rfl
  | case2 name t rest ih =>
    rw [List.flatMap_cons, ← ih]
    rfl
  | case3 id rest ih => exact ih
  | case4 rest ih => exact ih

section

include hr

/-- One entry in a list of parameters: a name, a type, or both. -/
theorem paramDecl_reads {unions : Bool} {first : Option Ident}
    (hfirst : OptFits Ident.Fits lo first mid) :
    Reads (Spaced hi mid) (paramDecl r unions first) fun p => Upto hi (p.Inside lo) := by
  have hunion {name : Option Ident} {first : Option Expr} {mid : Pos}
      (hfirst : OptFits Expr.Inside lo first mid) : Reads (Spaced hi mid) (do
        return ⟨name, some (← unionElem r first)⟩) fun p : Param => Upto hi (p.Inside lo) :=
    (unionElem_reads hr hfirst).then_ fun t mid' ht => .pure fun ts hts => ⟨mid', hts, ht⟩
  have hdots {name : Option Ident} {mid : Pos} (hle : lo ≤ mid) : Reads (Spaced hi mid) (do
        let dots ← expectOp .ellipsis
        return ⟨name, some (.ellipsis dots (← type r))⟩) fun p : Param =>
          Upto hi (p.Inside lo) := by
    refine (expectOp_reads _).then_ fun dots mid₁ hdots => (type_within hr).then_ fun t mid₂ ht =>
      .pure fun ts hts => ⟨mid₂, hts, ?_⟩
    exact ht.mono (by lia) (Nat.le_refl _)
  refine Reads.observe (observes_atOp _) fun b => ?_
  split
  · exact hunion (.none hfirst.1)
  extract_lets +onlyGivenNames widen
  have hwiden (p : Param) (mid : Pos) (hp : p.Inside lo mid) :
      Reads (Spaced hi mid) (widen p) fun p => Upto hi (p.Inside lo) := by
    obtain ⟨name, t⟩ := p
    cases t with
    | none => exact .pure fun ts hts => ⟨mid, hts, hp⟩
    | some t =>
      refine Reads.observe (observes_atOp _) fun b => ?_
      split
      · exact hunion (.some (LaidOut.le hp) hp)
      · exact .pure fun ts hts => ⟨mid, hts, hp⟩
  refine Reads.observe observes_atIdent fun b => ?_
  split
  · extract_lets +onlyGivenNames rest
    have hrest (id : Ident) (mid : Pos) (hid : id.Fits lo mid) :
        Reads (Spaced hi mid) (rest id) fun p => Upto hi (p.Inside lo) := by
      have hidb := hid.bounds
      refine Reads.observe (observes_atOp _) fun b => ?_
      split
      · exact (arrayOrInstance_reads hr hid).then_ fun t mid' ht => hwiden ⟨t.1, some t.2⟩ mid' ht
      refine Reads.observe (observes_atOp _) fun b => ?_
      split
      · exact hdots (by lia)
      refine Reads.observe (observes_atOp _) fun b => ?_
      split
      · exact (qualifiedName_reads hr (.some (by lia) hid)).then_ fun t mid' ht =>
          hwiden ⟨none, some t⟩ mid' ht.within
      refine Reads.observe (observes_atOp _) fun b => ?_
      split
      · exact hunion (.none (by lia))
      refine Reads.observe (observes_atOp _) fun b => ?_
      split
      · exact hunion (.some (by lia) (Expr.Fits.ofIdent hid).within)
      refine (hr.type? mid).then_ fun t mid' ht => hwiden _ mid' ?_
      have hle := ht.1
      cases t with
      | none => exact LaidOut.nil (by lia)
      | some t => exact (ht.2 t rfl).within.mono (by lia) (Nat.le_refl _)
    cases first with
    | some id => exact Reads.pure_bind (hrest id mid (hfirst.2 id rfl))
    | none =>
      exact ident_reads.then_ fun id mid' hid => hrest id mid' (hid.mono hfirst.1 (Nat.le_refl _))
  · refine Reads.observe (observes_atOp _) fun b => ?_
    split
    · exact hdots hfirst.1
    · exact (type_within hr).then_ fun t mid' ht =>
        hwiden ⟨none, some t⟩ mid' (ht.mono hfirst.1 (Nat.le_refl _))

/-- The entries up to the closing bracket. A name or a type of the first one may have been read
already. -/
theorem paramList_reads {name : Option Ident} {t : Option Expr} {close : Op}
    (hname : t = none → OptFits Ident.Fits lo name mid) (ht : OptFits Expr.Inside lo t mid) :
    Reads (Spaced hi mid) (paramList r name t close) fun ps =>
      Upto hi (LaidOut lo (Expr.statementsOfAll ps)) := by
  unfold paramList
  extract_lets +onlyGivenNames unions step continueWith finish
  let I := Collected hi Param.Inside lo
  have hstep {acc : List Param} {name : Option Ident} {t : Option Expr} {mid mid' : Pos}
      (hacc : InTurn Param.Inside lo acc.reverse mid)
      (hname : t = none → OptFits Ident.Fits mid name mid')
      (ht : OptFits Expr.Inside mid t mid') :
      Reads (Spaced hi mid') (step acc name t) fun next ts => next.Holds I I ts := by
    simp -zeta only [step]
    extract_lets +onlyGivenNames add
    have hadd (p : Param) : Reads (Upto hi (p.Inside mid)) (add p) fun next ts =>
        next.Holds I I ts := by
      refine Reads.upto fun mid' hp => Reads.observe (observes_atComma _) fun b => ?_
      split
      · exact Reads.advance (.pure fun ts hts => ⟨mid', hts, hacc.collect hp⟩)
      · exact .pure fun ts hts => ⟨mid', hts, hacc.collect hp⟩
    cases t with
    | none => exact (paramDecl_reads hr (hname rfl)).bind hadd
    | some t =>
      dsimp only
      split
      · refine (unionElem_reads hr ht).then_ fun t mid' ht => Reads.pure_bind ?_
        exact (hadd _).weaken fun ts hts => ⟨mid', hts, ht⟩
      · exact Reads.pure_bind ((hadd _).weaken fun ts hts => ⟨mid', hts, ht.2 t rfl⟩)
  have hcontinue (acc : List Param) : Reads (I acc) (continueWith acc) I := by
    refine repeated_reads (I := I) (fun ts hts => hts) fun acc => ?_
    refine Reads.observe (observes_atOp _) fun b => Reads.observe observes_atEnd fun e => ?_
    split
    · exact .pure fun ts hts => hts
    · exact Reads.upto fun mid hacc =>
        hstep hacc (fun _ => .none (Nat.le_refl _)) (.none (Nat.le_refl _))
  have hfinish (acc : List Param) : Reads (I acc) (finish acc) fun ps =>
      Upto hi (LaidOut lo (Expr.statementsOfAll ps)) := by
    refine Reads.upto fun mid hacc => ?_
    have hlaid := hacc.laidOut
    simp only [finish]
    split
    · split
      · next fields hfields =>
        refine .pure fun ts hts => ⟨mid, hts, ?_⟩
        rw [statementsOfAll_groupParams hfields]
        exact hlaid
      · exact Reads.unexpected
    · split
      · exact Reads.unexpected
      · refine .pure fun ts hts => ⟨mid, hts, ?_⟩
        rw [statementsOfAll_bareParams]
        exact hlaid
  split
  · have hnone : InTurn Param.Inside lo ([] : List Param).reverse lo := rfl
    refine Reads.bind (hstep hnone hname ht) fun next => ?_
    cases next with
    | more acc => exact (hcontinue acc).bind hfinish
    | done acc => exact Reads.pure_bind (hfinish acc)
  · refine ((hcontinue []).weaken fun ts hts => ?_).bind hfinish
    exact ⟨lo, hts.mono ht.1, rfl⟩

theorem typeParams_reads : Reads (Spaced hi lo) (typeParams r) fun ps =>
    Upto hi (LaidOut lo (Expr.statementsOfAll ps)) := by
  refine (expectOp_reads _).then_ fun opening mid hopening => ?_
  refine (paramList_reads hr (fun _ => .none (Nat.le_refl _)) (.none (Nat.le_refl _))).then_
    fun ps mid₁ hps => (expectOp_reads _).then_ fun close mid₂ hclose => ?_
  extract_lets
  split
  · exact Reads.throw_bind
  · exact .pure fun ts hts => ⟨mid₂, hts, hps.mono (by lia) (by lia)⟩

/-- A list of parameters with the position after it. -/
theorem params_reads : Reads (Spaced hi lo) (params r) fun ps =>
    Upto hi fun mid => LaidOut lo (Expr.statementsOfAll ps.1) ps.2 ∧ lo < ps.2 ∧ ps.2 ≤ mid := by
  refine (expectOp_reads _).then_ fun opening mid hopening => ?_
  refine (paramList_reads hr (fun _ => .none (Nat.le_refl _)) (.none (Nat.le_refl _))).then_
    fun ps mid₁ hps => (expectOp_reads _).then_ fun close mid₂ hclose => ?_
  refine .pure fun ts hts => ⟨mid₂, hts, hps.mono (by lia) (by lia), ?_⟩
  have hle := hps.le
  lia

/-- The results of a function, none, one type or a list, with the position after them. -/
theorem results_reads {stop : Pos} (hstop : stop ≤ mid) : Reads (Spaced hi mid) (results r stop)
    fun rs => Upto hi fun mid => LaidOut stop (Expr.statementsOfAll rs.1) rs.2 ∧ rs.2 ≤ mid := by
  refine Reads.observe (observes_atOp _) fun b => ?_
  split
  · exact (params_reads hr).strengthen fun rs ts ⟨mid', hts, hrs, hlt, hle⟩ =>
      ⟨mid', hts, hrs.mono hstop (Nat.le_refl _), hle⟩
  · refine (hr.type? mid).then_ fun t mid' ht => ?_
    have hle := ht.1
    cases t with
    | none => exact .pure fun ts hts => ⟨mid', hts, .nil (Nat.le_refl _), by lia⟩
    | some t =>
      have ht := ht.2 t rfl
      have htb := ht.bounds
      refine .pure fun ts hts => ⟨mid', hts, ?_, ht.stop_le⟩
      exact (ht.inside.append (.nil (Nat.le_refl _)) (Nat.le_refl _)).mono (by lia) (by lia)

/-- The type of a function, with its keyword. -/
theorem funcType_reads : Reads (Spaced hi lo) (funcType r) fun e => Upto hi (e.Fits lo) := by
  refine (expectKeyword_reads _).then_ fun start mid hstart => ?_
  refine (params_reads hr).then_ fun ps mid₁ hps => ?_
  refine (results_reads hr hps.2.2).then_ fun rs mid₂ hrs => .pure fun ts hts => ⟨mid₂, hts, ?_⟩
  have hle := hrs.1.le
  refine .of_inside start rs.2 rfl rfl (hps.1.append hrs.1 (Nat.le_refl _)) fun _ => by lia

/-! ## Structures and interfaces -/

omit hr in
/-- A tag adds no statement; it only moves on. -/
theorem fieldTag_reads : Reads (Spaced hi lo) fieldTag fun _ => Upto hi (lo ≤ ·) := by
  refine Reads.peek fun t => ?_
  split
  · exact Reads.forget (Reads.advance (.pure fun ts hts => ⟨lo, hts, Nat.le_refl _⟩))
  · exact .pure fun ts hts => ⟨lo, hts.1, Nat.le_refl _⟩

/-- The fields of one line of a structure. -/
theorem fieldDecl_reads : Reads (Spaced hi lo) (fieldDecl r) fun e => Upto hi (e.Inside lo) := by
  refine Reads.observe observes_atIdent fun b => Reads.observe (observes_atOp _) fun b' => ?_
  extract_lets +onlyGivenNames finish
  have hfinish (names : List Ident) (t : Expr) (mid : Pos) (ht : t.Inside lo mid) :
      Reads (Spaced hi mid) (finish (names, t)) fun e => Upto hi (e.Inside lo) := by
    refine fieldTag_reads.then_ fun tag mid' htag => endStatement_reads fun _ => ?_
    exact .pure fun ts hts => ⟨mid', hts, ht.mono (Nat.le_refl _) htag⟩
  split
  · refine ident_reads.then_ fun id mid hid => Reads.observe observes_kind fun k => ?_
    have hidb := hid.bounds
    split
    · extract_lets
      split
      · exact (qualifiedName_reads hr (.some (by lia) hid)).then_ fun t mid' ht =>
          Reads.pure_bind (hfinish [] t mid' ht.within)
      · exact Reads.pure_bind (hfinish [] (.ident id) mid (Expr.Fits.ofIdent hid).within)
    · have hname (mid : Pos) : Reads (Spaced hi mid) (do advance; ident) fun id =>
          Upto hi fun mid' => mid ≤ mid' := by
        refine Reads.advance (ident_reads.strengthen fun id ts ⟨mid', hts, hid⟩ => ⟨mid', hts, ?_⟩)
        have hidb := hid.bounds
        lia
      refine (many_inTurn hname (observes_atOp _)).then_ fun more mid' hmore => ?_
      have hle : mid ≤ mid' := hmore.le fun _ _ _ h => h
      refine Reads.observe (observes_atOp _) fun b => ?_
      split
      · exact (arrayOrInstance_reads hr (hid.mono (Nat.le_refl _) hle)).then_ fun t mid'' ht =>
          Reads.pure_bind (hfinish t.1.toList t.2 mid'' ht)
      · exact (type_within hr).then_ fun t mid'' ht =>
          Reads.pure_bind (hfinish (id :: more) t mid'' (ht.mono (by lia) (Nat.le_refl _)))
  · split
    · refine (expectOp_reads _).then_ fun star mid hstar => ?_
      refine Reads.observe (observes_atOp _) fun b => ?_
      extract_lets
      split
      · exact Reads.unexpected_bind
      · refine (qualifiedName_reads hr (.none (Nat.le_refl _))).then_ fun t mid' ht => ?_
        exact Reads.pure_bind (hfinish [] (.star star t) mid'
          (ht.within.mono (by lia) (Nat.le_refl _)))
    · exact Reads.unexpected_bind

theorem structType_reads : Reads (Spaced hi lo) (structType r) fun e => Upto hi (e.Fits lo) := by
  refine (expectKeyword_reads _).then_ fun start mid hstart => ?_
  refine (expectOp_reads _).then_ fun opening mid₁ hopening => ?_
  have htest : Observes (do return (← atIdent) || (← atOp .mul) || (← atOp .lparen)) :=
    observes_bind observes_atIdent fun _ => observes_bind (observes_atOp _) fun _ =>
      observes_map (observes_atOp _)
  refine (many_inTurn (fun _ => fieldDecl_reads hr) htest).then_ fun fields mid₂ hfields => ?_
  refine (expectOp_reads _).then_ fun close mid₃ hclose => .pure fun ts hts => ⟨mid₃, hts, ?_⟩
  have hall := Expr.Inside.all hfields
  exact .of_inside start (close + 1) rfl rfl hall fun _ => by lia

/-- An entry of an interface: a method or a union. -/
theorem methodSpec_reads : Reads (Spaced hi lo) (methodSpec r) fun e => Upto hi (e.Inside lo) := by
  refine (typeName_reads (.none (Nat.le_refl _))).then_ fun x mid hx => ?_
  split
  · next id =>
    have hle := LaidOut.le hx.within
    refine Reads.observe (observes_atOp _) fun b => ?_
    split
    · refine (expectOp_reads _).then_ fun opening mid₁ hopening => ?_
      refine (nested_reads (expr_within hr)).then_ fun first mid₂ hfirst => ?_
      refine Reads.observe (observes_atComma _) fun b => ?_
      extract_lets +onlyGivenNames finish
      have hfinish (more : List Expr) (mid : Pos) (hmore : InTurn Expr.Inside mid₂ more mid) :
          Reads (Spaced hi mid) (finish more) fun e => Upto hi (e.Inside lo) := by
        refine (expectOp_reads _).then_ fun close mid₃ hclose => .pure fun ts hts => ⟨mid₃, hts, ?_⟩
        have hall := LaidOut.append hfirst (Expr.Inside.all hmore) (Nat.le_refl _)
        exact hall.mono (by lia) (by lia)
      split
      · exact Reads.advance ((nested_reads (itemsUntil_inTurn (fun _ => type_within hr) _)).then_
          fun more mid hmore => hfinish more mid hmore)
      · exact Reads.pure_bind (hfinish [] mid₂ rfl)
    · refine Reads.observe (observes_atOp _) fun b => ?_
      split
      · refine (params_reads hr).then_ fun ps mid₁ hps => ?_
        refine (results_reads hr hps.2.2).then_ fun rs mid₂ hrs => .pure fun ts hts =>
          ⟨mid₂, hts, ?_⟩
        exact (hps.1.append hrs.1 (Nat.le_refl _)).mono hle hrs.2
      · exact .pure fun ts hts => ⟨mid, hts, hx.within⟩
  · refine Reads.observe (observes_atOp _) fun b => ?_
    extract_lets
    split
    · exact (typeInstance_reads hr hx).then_ fun t mid' ht => .pure fun ts hts =>
        ⟨mid', hts, ht.within⟩
    · exact .pure fun ts hts => ⟨mid, hts, hx.within⟩

theorem interfaceType_reads :
    Reads (Spaced hi lo) (interfaceType r) fun e => Upto hi (e.Fits lo) := by
  refine (expectKeyword_reads _).then_ fun start mid hstart => ?_
  refine (expectOp_reads _).then_ fun opening mid₁ hopening => ?_
  refine Reads.then_ (collect_reads Expr.Inside fun acc mid hacc => ?_)
    fun acc mid₂ hacc => ?_
  · have hadd (m : Expr) (mid' : Pos) (hm : m.Inside mid mid') : Reads (Spaced hi mid') (do
        endStatement
        return Step.more (m :: acc)) fun next ts =>
          next.Holds (Collected hi Expr.Inside mid₁) (Collected hi Expr.Inside mid₁) ts :=
      endStatement_reads fun _ => .pure fun ts hts => ⟨mid', hts, hacc.collect hm⟩
    refine Reads.observe observes_atIdent fun b => ?_
    split
    · refine (methodSpec_reads hr).then_ fun m mid' hm => ?_
      extract_lets
      split
      · next t tag =>
        have ht : t.Inside mid mid' := hm
        exact (unionElem_reads hr (.some (LaidOut.le ht) ht)).then_ fun t mid'' ht =>
          Reads.pure_bind (hadd (.field [] t tag) mid'' ht)
      · exact Reads.pure_bind (hadd m mid' hm)
    · refine Reads.observe (observes_atOp _) fun b => ?_
      split
      · exact (unionElem_reads hr (.none (Nat.le_refl _))).then_ fun t mid' ht =>
          hadd (.field [] t []) mid' ht
      · refine (hr.type? mid).then_ fun t mid' ht => ?_
        cases t with
        | none => exact .pure fun ts hts => ⟨mid, hts.mono ht.1, hacc⟩
        | some t =>
          exact (unionElem_reads hr (.some ht.1 (ht.2 t rfl).within)).then_ fun t mid'' ht =>
            hadd (.field [] t []) mid'' ht
  · refine (expectOp_reads _).then_ fun close mid₃ hclose => .pure fun ts hts => ⟨mid₃, hts, ?_⟩
    have hall := Expr.Inside.all hacc
    exact .of_inside start (close + 1) rfl rfl hall fun _ => by lia

theorem chanType_reads : Reads (Spaced hi lo) (chanType r) fun e => Upto hi (e.Fits lo) := by
  refine pos_reads fun t => ?_
  have hread {dir : ChanDir} {mid : Pos} (hlo : lo ≤ t.pos) (hmid : t.pos < mid) :
      Reads (Spaced hi mid) (do return Expr.chanType t.pos dir (← type r)) fun e =>
        Upto hi (e.Fits lo) := by
    refine (type_reads hr).then_ fun e mid' he => .pure fun ts hts => ⟨mid', hts, ?_⟩
    have heb := he.bounds
    exact .of_inside t.pos e.stop rfl rfl he.inside fun _ => by lia
  refine atKeyword_next (fun hkind => ?_) ?_
  · have hkind : t.kind ≠ .eof := by simp [hkind]
    refine Reads.take hkind fun hsound hlo _ => ?_
    have hlt := hsound.pos_lt_stop hkind
    refine Reads.observe (observes_atOp _) fun b => ?_
    split
    · exact Reads.advance (hread hlo hlt)
    · exact hread hlo hlt
  · refine (expectOp_next _).then_ fun arrow mid harrow => ?_
    refine (expectKeyword_reads _).then_ fun word mid' hword => hread ?_ ?_
    · lia
    · lia

/-- A type, if one starts here. Which form it has is told by its first token. -/
theorem typeRule_reads :
    Reads (Spaced hi lo) (typeRule r) fun t => Upto hi (OptFits Expr.Fits lo t) := by
  have hread {p : Parse Expr} (hp : Reads (Spaced hi lo) p fun e => Upto hi (e.Fits lo)) :
      Reads (Spaced hi lo) (do return some (← p)) fun t => Upto hi (OptFits Expr.Fits lo t) :=
    hp.then_ fun e mid he => .pure fun ts hts => ⟨mid, hts, .some (LaidOut.le he.within) he⟩
  have hsome {e : Expr} {mid : Pos} (he : e.Fits lo mid) : OptFits Expr.Fits lo (some e) mid :=
    .some (LaidOut.le he.within) he
  refine Reads.observe observes_kind fun k => ?_
  split
  · exact hread (qualifiedName_reads hr (.none (Nat.le_refl _)))
  · refine (expectOp_reads _).then_ fun start mid hstart => ?_
    refine (arrayType_reads hr hstart.1 hstart.2.1 (by simp)).then_ fun e mid' he => ?_
    exact .pure fun ts hts => ⟨mid', hts, hsome he⟩
  · exact hread (structType_reads hr)
  · refine (expectOp_reads _).then_ fun star mid hstar => ?_
    refine (type_reads hr).then_ fun t mid' ht => .pure fun ts hts => ⟨mid', hts, hsome ?_⟩
    have htb := ht.bounds
    exact .of_inside star t.stop rfl rfl ht.inside fun _ => by lia
  · exact hread (funcType_reads hr)
  · exact hread (interfaceType_reads hr)
  · refine (expectKeyword_reads _).then_ fun start mid hstart => ?_
    refine (expectOp_reads _).then_ fun opening mid₁ hopening => ?_
    refine (type_within hr).then_ fun key mid₂ hkey => ?_
    refine (expectOp_reads _).then_ fun close mid₃ hclose => ?_
    refine (type_reads hr).then_ fun t mid₄ ht => .pure fun ts hts => ⟨mid₄, hts, hsome ?_⟩
    have htb := ht.bounds
    have hle := LaidOut.le hkey
    exact .of_inside start t.stop rfl rfl (hkey.append ht.inside (by lia)) fun _ => by lia
  · exact hread (chanType_reads hr)
  · exact hread (chanType_reads hr)
  · refine (expectOp_reads _).then_ fun start mid hstart => ?_
    refine (type_within hr).then_ fun t mid₁ ht => ?_
    refine (expectOp_reads _).then_ fun close mid₂ hclose => .pure fun ts hts =>
      ⟨mid₂, hts, hsome ?_⟩
    have hle := LaidOut.le ht
    exact .of_inside start (close + 1) rfl rfl ht fun _ => by lia
  · exact .pure fun ts hts => ⟨lo, hts, .none (Nat.le_refl _)⟩

end

end Parse

end CaseCover
