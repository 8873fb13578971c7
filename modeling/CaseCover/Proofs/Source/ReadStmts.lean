import CaseCover.Proofs.Source.ReadExprs

/-!
# Where statements stand

Each rule for statements, and for the groups of declarations that may also be statements, gives one
that stands where it was read (`Stmt.Fits`). Most of them end with their last token. A statement
with a label, and a clause, end with the last statement in them, which may be an empty one in front
of a closing brace.
-/

namespace CaseCover

open Token (Spaced)

/-! ## Expressions one after the other -/

theorem Expr.Fits.all {es : List Expr} {lo hi : Pos} (h : InTurn Expr.Fits lo es hi) :
    LaidOut lo (Expr.statementsOfAll es) hi :=
  Expr.Inside.all (h.imp fun _ _ _ he => he.within)

/-- The last of some expressions ends last. -/
theorem Expr.Fits.stopOfLast {es : List Expr} {lo hi dflt : Pos} (h : InTurn Expr.Fits lo es hi)
    (hdflt : dflt ≤ lo) :
    LaidOut dflt (Expr.statementsOfAll es) (Expr.stopOfLast dflt es) ∧
      Expr.stopOfLast dflt es ≤ hi := by
  induction es generalizing lo dflt with
  | nil =>
    cases h
    exact ⟨.nil (Nat.le_refl _), hdflt⟩
  | cons e es ih =>
    obtain ⟨mid, he, hes⟩ := h
    obtain ⟨hlaid, hhi⟩ := ih hes he.stop_le
    have heb := he.bounds
    exact ⟨(he.inside.append hlaid (Nat.le_refl _)).mono (by lia) (Nat.le_refl _), hhi⟩

/-- The statements of a statement, or of none, stand between two positions. -/
def Stmt.Inside (lo : Pos) (s : Stmt) (hi : Pos) : Prop := LaidOut lo s.statements hi

/-- An entry of a group stands between two positions, and the statements inside it up to its end. -/
structure Spec.Fits (lo : Pos) (s : Spec) (hi : Pos) : Prop where
  inside : LaidOut lo s.statements s.stop
  stop_le : s.stop ≤ hi

theorem Spec.statementsOfAll_eq (ss : List Spec) :
    statementsOfAll ss = ss.flatMap statements := by
  induction ss with
  | nil => rfl
  | cons s ss ih => rw [statementsOfAll, ih, List.flatMap_cons]

namespace Parse

variable {α : Type} {hi lo mid : Pos} {r : Rules} (hr : r.Fitting hi)

section

include hr

theorem exprList_reads : Reads (Spaced hi lo) (exprList r) fun es =>
    Upto hi fun mid => es ≠ [] ∧ InTurn Expr.Fits lo es mid :=
  commaSeparated_inTurn fun _ => expr_reads hr

end

/-- An assignment lies from its first left side to its last right side. -/
theorem assign_fits {xs ys : List Expr} {op : Op} (hxs : InTurn Expr.Fits lo xs mid) (hne : xs ≠ [])
    (hys : InTurn Expr.Fits mid ys hi) (hne' : ys ≠ []) : (Stmt.assign xs op ys).Fits lo hi := by
  cases xs with
  | nil => exact absurd rfl hne
  | cons x xs =>
    cases ys with
    | nil => exact absurd rfl hne'
    | cons y ys =>
      obtain ⟨mid₁, hx, hxs⟩ := hxs
      have hxb := hx.bounds
      have hleft := Expr.Fits.all hxs
      have hle := hleft.le
      obtain ⟨hright, hstop⟩ := Expr.Fits.stopOfLast hys (Nat.le_refl _)
      have hle' := hright.le
      have hall := (hx.inside.append hleft hx.stop_le).append hright (Nat.le_refl _)
      exact .of_inside x.pos (Expr.stopOfLast mid (y :: ys)) rfl rfl rfl hall fun _ => by lia

/-! ## Simple statements -/

/-- The statements of a simple statement, or of the clause of a loop. -/
def Simple.statements : Simple → List Stmt
  | .stmt s => s.statements
  | .range lhs _ subject => Expr.statementsOfAll lhs ++ subject.statements

/-- A simple statement, or the clause of a loop, stands between two positions. -/
def Simple.Fits (lo : Pos) (s : Simple) (hi : Pos) : Prop :=
  match s with
  | .stmt s => s.Fits lo hi
  | .range _ _ _ => LaidOut lo s.statements hi

/-- The statements of a simple statement are laid out, and so are those of a range clause. -/
theorem Simple.Fits.laidOut {s : Simple} (h : s.Fits lo hi) : LaidOut lo s.statements hi := by
  cases s with
  | stmt s => exact Stmt.Fits.laidOut h
  | range lhs op subject => exact h

/-- An expression and a mark of two characters behind it. -/
theorem incDec_fits {x : Expr} {t : Token} {o : Op} (hx : x.Fits lo mid) (hsound : t.Sound)
    (hkind : t.kind = .op o) (hlength : o.text.length = 2) (hmid : mid ≤ t.pos) :
    (Stmt.incDec x t.pos o).Fits lo t.stop := by
  have hxb := hx.bounds
  rw [Token.Sound, hkind] at hsound
  have hstop : t.stop = t.pos + 2 := by rw [Token.stop, hsound, hlength]
  exact .of_inside x.pos (t.pos + 2) rfl rfl rfl hx.inside fun _ => by lia

section

include hr

/-- Only a statement with a label may end just before a closing brace. -/
theorem simple_reads (mode : SimpleMode) : Reads (Spaced hi lo) (simple r mode) fun s ts =>
    Upto hi (s.Fits lo) ts ∨
      mode = .labels ∧ ∃ id body, s = .stmt (.labeled id body) ∧ UptoBrace hi (s.Fits lo) ts := by
  refine (exprList_reads hr).then_ fun xs mid hxs => Reads.peek fun t => ?_
  obtain ⟨hne, hxs⟩ := hxs
  extract_lets assignOp
  -- which operators assign does not matter
  clear_value assignOp
  cases assignOp with
  | some o =>
    refine Reads.forget (Reads.advance (Reads.observe (observes_atKeyword _) fun b => ?_))
    split
    · refine Reads.advance ((expr_reads hr).then_ fun y mid' hy => .pure fun ts hts => .inl ?_)
      exact ⟨mid', hts, (Expr.Fits.all hxs).append hy.within (Nat.le_refl _)⟩
    · exact (exprList_reads hr).then_ fun ys mid' ⟨hne', hys⟩ => .pure fun ts hts =>
        .inl ⟨mid', hts, assign_fits hxs hne hys hne'⟩
  | none =>
    match xs, hxs with
    | [], _ => exact absurd rfl hne
    | x :: y :: xs, _ => exact Reads.unexpected
    | [x], ⟨_, hx, hmid⟩ =>
      cases hmid
      have hxb := hx.bounds
      dsimp only
      split
      · refine Reads.forget (Reads.advance ?_)
        split
        · next id =>
          split
          · next hmode =>
            refine (hr.stmt _).bind fun body => .pure fun ts hts => .inr ⟨hmode, id, body, rfl, ?_⟩
            refine hts.imp fun mid' hbody => ?_
            have hbb := hbody.between
            have hpos : (Expr.ident id).pos = id.pos := rfl
            have hstop : (Stmt.labeled id body).stop = body.stop := rfl
            exact .of_inner id.pos rfl rfl hbody.laidOut (fun t => hbody.stop_le) fun _ => by lia
          · exact Reads.throw
        · exact Reads.throw
      · refine Reads.forget (Reads.advance ((expr_reads hr).then_ fun y mid' hy =>
          .pure fun ts hts => .inl ⟨mid', hts, ?_⟩))
        have hyb := hy.bounds
        exact .of_inside x.pos y.stop rfl rfl rfl (hx.inside.append hy.inside (by lia))
          fun _ => by lia
      · next hkind =>
        exact Reads.take (by simp [hkind]) fun hsound hmid _ => .pure fun ts hts =>
          .inl ⟨t.stop, hts, incDec_fits hx hsound hkind (by decide) hmid⟩
      · next hkind =>
        exact Reads.take (by simp [hkind]) fun hsound hmid _ => .pure fun ts hts =>
          .inl ⟨t.stop, hts, incDec_fits hx hsound hkind (by decide) hmid⟩
      · exact .pure fun ts hts => .inl ⟨mid, hts.1, .of_inside x.pos x.stop rfl rfl rfl hx.inside
          fun _ => by lia⟩

/-- A simple statement where no range clause may stand. -/
theorem simpleStmt_reads : Reads (Spaced hi lo) (simpleStmt r) fun s => Upto hi (s.Fits lo) := by
  refine (simple_reads hr _).bind fun s => ?_
  cases s with
  | range lhs op subject => exact Reads.unexpected
  | stmt s =>
    refine .pure fun ts hts => hts.resolve_right ?_
    rintro ⟨hmode, -⟩
    cases hmode

omit hr in
/-- What is inside an expression is inside the statement that it is. -/
theorem asExpr_reads {P : List Token → Prop} (s : Stmt) : Reads P (asExpr s) fun e ts =>
    (∀ lo hi, s.Inside lo hi → e.Inside lo hi) ∧ P ts := by
  unfold asExpr
  split
  · exact .pure fun ts hts => ⟨fun _ _ h => h, hts⟩
  · exact .pure fun ts hts => ⟨fun _ _ h => LaidOut.tail h, hts⟩
  · exact Reads.unexpected

end

/-! ## Groups of declarations -/

/-- Splitting off the name of a type parameter keeps the statements. -/
theorem statements_of_splitTypeParam {force : Bool} {x : Expr} {id : Ident} {t : Option Expr}
    (h : splitTypeParam force x = some (id, t)) :
    (t = none → x = .ident id) ∧ ∀ e, t = some e → e.statements = x.statements := by
  -- by recursion as in the definition: the name is the leftmost part of a union
  unfold splitTypeParam at h
  split at h
  · cases h
    exact ⟨fun _ => rfl, nofun⟩
  · next x op y =>
    split at h
    · split at h
      · split at h
        · cases h
          refine ⟨nofun, fun e he => ?_⟩
          cases he
          rfl
        · cases h
      · cases h
    · split at h
      · split at h
        · next name lhs hsplit =>
          cases h
          refine ⟨nofun, fun e he => ?_⟩
          cases he
          exact congrArg (· ++ y.statements) ((statements_of_splitTypeParam hsplit).2 lhs rfl)
        · cases h
      · cases h
  · split at h
    · cases h
      refine ⟨nofun, fun e he => ?_⟩
      cases he
      exact (List.append_nil _).symm
    · cases h
  · cases h

section

include hr

/-- A type declaration whose name is followed by a bracket: a generic type, or an array. -/
theorem genericType_reads {name first : Ident} {t : Option Expr}
    (hfirst : t = none → first.Fits lo mid) (ht : OptFits Expr.Inside lo t mid) :
    Reads (Spaced hi mid) (genericType r name first t) fun s => Upto hi (s.Fits lo) := by
  refine (paramList_reads hr (fun h => .some ht.1 (hfirst h)) ht).then_ fun ps mid₁ hps => ?_
  refine (expectOp_reads _).then_ fun close mid₂ hclose => ?_
  refine Reads.observe (observes_atOp _) fun b => ?_
  extract_lets +onlyGivenNames rest
  have hrest : Reads (Spaced hi mid₂) (rest ()) fun s => Upto hi (s.Fits lo) := by
    refine (type_reads hr).then_ fun e mid₃ he => .pure fun ts hts => ⟨mid₃, hts, ?_, he.stop_le⟩
    have heb := he.bounds
    exact hps.append he.inside (by lia)
  split
  · exact Reads.advance hrest
  · exact hrest

theorem typeSpec_reads : Reads (Spaced hi lo) (typeSpec r) fun s => Upto hi (s.Fits lo) := by
  refine ident_reads.then_ fun name mid hname => Reads.observe (observes_atOp _) fun b => ?_
  have hnameb := hname.bounds
  extract_lets +onlyGivenNames done
  have hdone {isAlias : Bool} {e : Expr} {start mid' : Pos} (hlo : lo ≤ start)
      (he : e.Fits start mid') : (Spec.type name [] isAlias e).Fits lo mid' := by
    have heb := he.bounds
    exact ⟨he.inside.mono (by lia) (Nat.le_refl _), he.stop_le⟩
  split
  · refine (expectOp_reads _).then_ fun start mid₁ hstart => ?_
    refine Reads.observe observes_atIdent fun b => ?_
    split
    · refine ident_reads.then_ fun id mid₂ hid => Reads.observe (observes_atOp _) fun b => ?_
      extract_lets +onlyGivenNames rest
      have hrest (x : Expr) (mid : Pos) (hx : x.Fits mid₁ mid) :
          Reads (Spaced hi mid) (rest x) fun s => Upto hi (s.Fits lo) := by
        have hxb := hx.bounds
        -- what was read is the length of an array, unless it is a type parameter
        have harray : Reads (Spaced hi mid) (do
            return Spec.type name [] false (← arrayType r start (some x))) fun s =>
              Upto hi (s.Fits lo) := by
          refine (arrayType_reads hr (Nat.le_refl start) (by lia) fun e he => ?_).then_
            fun e mid' he => .pure fun ts hts => ⟨mid', hts, hdone (by lia) he⟩
          cases he
          exact hx.within.mono (by lia) (Nat.le_refl _)
        refine Reads.observe (observes_atOp _) fun comma => ?_
        refine Reads.observe (observes_atOp _) fun closes => ?_
        split
        · next first t hsplit =>
          obtain ⟨hname, ht⟩ := statements_of_splitTypeParam hsplit
          have hfirst (hnone : t = none) : first.Fits lo mid := by
            cases hname hnone
            exact ⟨Nat.le_trans (by lia) hx.le_pos, hx.pos_lt, hx.stop_le⟩
          have hrestOf : OptFits Expr.Inside lo t mid := by
            refine ⟨by lia, fun e he => ?_⟩
            rw [Expr.Inside, ht e he]
            exact hx.within.mono (by lia) (Nat.le_refl mid)
          split
          · exact (genericType_reads hr hfirst hrestOf).bind fun s => .pure fun ts hts => hts
          · exact harray
        · exact harray
      split
      · exact Reads.pure_bind (hrest _ mid₂ (.ofIdent hid))
      · refine (nested_reads ?_).then_ fun x mid₃ hx => hrest x mid₃ hx
        exact (primary_reads hr (.some (LaidOut.le (Expr.Fits.ofIdent hid).within)
          (Expr.Fits.ofIdent hid))).then_ fun x mid₃ hx =>
            hr.binary _ _ _ _ (.some (LaidOut.le hx.within) hx)
    · refine (arrayType_reads hr (Nat.le_refl _) hstart.2.1 (by simp)).then_ fun e mid₂ he => ?_
      exact .pure fun ts hts => ⟨mid₂, hts, hdone (by lia) he⟩
  · refine Reads.observe (observes_atOp _) fun isAlias => ?_
    extract_lets +onlyGivenNames rest
    have hrest : Reads (Spaced hi mid) (rest ()) fun s => Upto hi (s.Fits lo) :=
      (type_reads hr).then_ fun e mid' he => .pure fun ts hts => ⟨mid', hts, hdone (by lia) he⟩
    split
    · exact Reads.advance hrest
    · exact hrest

omit hr

/-- The last of some names ends last. -/
theorem last_of_names {names : List Ident} (hne : names ≠ []) (h : InTurn Ident.Fits lo names mid) :
    ∃ id, names.getLast? = some id ∧ lo ≤ id.stop ∧ id.stop ≤ mid := by
  induction names generalizing lo with
  | nil => exact absurd rfl hne
  | cons id names ih =>
    obtain ⟨mid', hid, hnames⟩ := h
    have hidb := hid.bounds
    cases names with
    | nil =>
      cases hnames
      exact ⟨id, rfl, by lia, hid.stop_le⟩
    | cons id' names =>
      obtain ⟨last, hlast, hlo, hhi⟩ := ih (List.cons_ne_nil _ _) hnames
      exact ⟨last, hlast, by lia, hhi⟩

theorem names_fits {names : List Ident} (hne : names ≠ []) (h : InTurn Ident.Fits lo names mid) :
    (Spec.values names .absent []).Fits lo mid := by
  obtain ⟨id, hlast, hlo, hhi⟩ := last_of_names hne h
  have hstop : (Spec.values names .absent []).stop = id.stop := by
    simp [Spec.stop, hlast]
  exact ⟨hstop ▸ .nil hlo, hstop ▸ hhi⟩

/-- An entry ends with its last value, or else with its type. -/
theorem values_fits {names : List Ident} {t : Expr} {vs : List Expr} {mid' : Pos} (hlo : lo ≤ mid)
    (ht : t.Fits mid mid' ∨ t = .absent ∧ mid ≤ mid' ∧ vs ≠ [])
    (hvs : InTurn Expr.Fits mid' vs hi) : (Spec.values names t vs).Fits lo hi := by
  rcases ht with ht | ⟨rfl, hle, hne⟩
  · have htb := ht.bounds
    have hstop : (Spec.values names t vs).stop = Expr.stopOfLast t.stop vs := by
      cases t with
      | absent => exact absurd ht.pos_lt (Nat.lt_irrefl 0)
      | _ => rfl
    obtain ⟨hlaid, hend⟩ := Expr.Fits.stopOfLast hvs ht.stop_le
    rw [← hstop] at hlaid hend
    exact ⟨(ht.inside.append hlaid (Nat.le_refl _)).mono (by lia) (Nat.le_refl _), hend⟩
  · cases vs with
    | nil => exact absurd rfl hne
    | cons v vs =>
      obtain ⟨hlaid, hend⟩ := Expr.Fits.stopOfLast hvs (Nat.le_refl mid')
      exact ⟨hlaid.mono (by lia) (Nat.le_refl _), hend⟩

include hr

theorem constSpec_reads : Reads (Spaced hi lo) (constSpec r) fun s => Upto hi (s.Fits lo) := by
  refine (commaSeparated_inTurn fun _ => ident_reads).then_ fun names mid ⟨hne, hnames⟩ => ?_
  have hle := hnames.le fun _ _ _ h => h.le
  refine Reads.observe observes_kind fun k => ?_
  split
  · exact .pure fun ts hts => ⟨mid, hts, names_fits hne hnames⟩
  · refine (hr.type? mid).then_ fun t mid' ht => ?_
    extract_lets t'
    refine Reads.observe (observes_atOp _) fun b => ?_
    split
    · refine Reads.advance ((exprList_reads hr).then_ fun vs mid'' ⟨hne', hvs⟩ =>
        .pure fun ts hts => ⟨mid'', hts, values_fits hle ?_ hvs⟩)
      cases t with
      | none => exact .inr ⟨rfl, ht.1, hne'⟩
      | some t => exact .inl (ht.2 t rfl)
    · refine .pure fun ts hts => ?_
      cases t with
      | none => exact ⟨mid, hts.mono ht.1, names_fits hne hnames⟩
      | some t => exact ⟨mid', hts, values_fits hle (.inl (ht.2 t rfl)) rfl⟩

theorem varSpec_reads : Reads (Spaced hi lo) (varSpec r) fun s => Upto hi (s.Fits lo) := by
  refine (commaSeparated_inTurn fun _ => ident_reads).then_ fun names mid ⟨hne, hnames⟩ => ?_
  have hle := hnames.le fun _ _ _ h => h.le
  refine Reads.observe (observes_atOp _) fun b => ?_
  extract_lets +onlyGivenNames rest
  have hrest (t : Expr) (mid' : Pos) (ht : t.Fits mid mid' ∨ t = .absent ∧ mid ≤ mid') :
      Reads (Spaced hi mid') (rest t) fun s => Upto hi (s.Fits lo) := by
    refine Reads.observe (observes_atOp _) fun b => ?_
    split
    · refine Reads.advance ((exprList_reads hr).then_ fun vs mid'' ⟨hne', hvs⟩ =>
        .pure fun ts hts => ⟨mid'', hts, values_fits hle ?_ hvs⟩)
      exact ht.imp_right fun h => ⟨h.1, h.2, hne'⟩
    · refine .pure fun ts hts => ?_
      rcases ht with ht | ⟨rfl, hle'⟩
      · exact ⟨mid', hts, values_fits hle (.inl ht) rfl⟩
      · exact ⟨mid, hts.mono hle', names_fits hne hnames⟩
  split
  · exact Reads.pure_bind (hrest .absent mid (.inr ⟨rfl, Nat.le_refl _⟩))
  · exact (type_reads hr).then_ fun t mid' ht => hrest t mid' (.inl ht)

omit hr

/-- An import fits anywhere, as it has no statements. -/
theorem importSpec_reads : Reads (Spaced hi lo) importSpec fun s => Upto hi (s.Fits lo) := by
  refine Reads.observe observes_atIdent fun b => Reads.observe (observes_atOp _) fun b' => ?_
  extract_lets +onlyGivenNames rest
  have hrest (name : Option Ident) (mid : Pos) (hle : lo ≤ mid) :
      Reads (Spaced hi mid) (rest name) fun s => Upto hi (s.Fits lo) := by
    refine Reads.peek fun t => ?_
    split
    · next hkind =>
      have hkind : t.kind = .literal .string := beq_iff_eq.mp hkind
      refine Reads.take (by simp [hkind]) fun _ hpos _ => .pure fun ts hts => ⟨t.stop, hts, ?_, ?_⟩
      · exact .nil (Nat.le_trans (Nat.le_trans hle hpos) t.pos_le_stop)
      · exact Nat.le_refl _
    · exact Reads.unexpected
  split
  · exact ident_reads.then_ fun id mid hid => Reads.pure_bind (hrest (some id) mid hid.le)
  · split
    · refine (expectOp_reads _).then_ fun p mid hp => Reads.pure_bind (hrest _ mid ?_)
      lia
    · exact Reads.pure_bind (hrest none lo (Nat.le_refl _))

/-- A group with its keyword and the brackets around its entries. -/
theorem group_reads {keyword : Keyword} {kind : DeclKind} {spec : Parse Spec}
    (hspec : ∀ lo, Reads (Spaced hi lo) spec fun s => Upto hi (s.Fits lo)) :
    Reads (Spaced hi lo) (group keyword kind spec) fun g => Upto hi fun mid =>
      (Stmt.decl g.1 g.2.1 g.2.2.1 g.2.2.2).Fits lo mid ∧ mid ≤ hi := by
  refine (expectKeyword_reads _).then_ fun start mid hstart => ?_
  extract_lets +onlyGivenNames entry
  have hentry (lo : Pos) : Reads (Spaced hi lo) entry fun s => Upto hi fun mid =>
      s.Fits lo mid ∧ mid ≤ hi :=
    (hspec lo).then_ fun s mid hs => endStatement_reads fun hle => .pure fun ts hts =>
      ⟨mid, hts, hs, hle⟩
  refine Reads.observe (observes_atOp _) fun b => ?_
  split
  · have htest : Observes (do return !((← atOp .rparen) || (← atEnd))) :=
      observes_bind (observes_atOp _) fun _ => observes_map observes_atEnd
    refine Reads.advance ((many_inTurn hentry htest).then_ fun specs mid₁ hspecs => ?_)
    refine (expectOp_reads _).then_ fun close mid₂ hclose => endStatement_reads fun hle => ?_
    refine .pure fun ts hts => ⟨mid₂, hts, ?_, hle⟩
    have hall : LaidOut mid (Spec.statementsOfAll specs) mid₁ := Spec.statementsOfAll_eq specs ▸
      (hspecs.imp fun _ _ _ hs => hs.1.inside.mono (Nat.le_refl _) hs.1.stop_le).laidOut
    have hgrow := hall.le
    have hstop : (Stmt.decl start kind specs close).stop = close + 1 := if_pos (by lia)
    exact .of_inside start (close + 1) rfl hstop rfl hall fun _ => by lia
  · refine (hentry mid).then_ fun s mid₁ ⟨hs, hle⟩ => .pure fun ts hts => ⟨mid₁, hts, ?_, hle⟩
    have hstop : (Stmt.decl start kind [s] 0).stop = s.stop := rfl
    have hinside := hs.inside
    have hgrow := hinside.le
    have hend := hs.stop_le
    have hall := hinside.append (.nil (Nat.le_refl _)) (Nat.le_refl _)
    exact .of_inside start s.stop rfl hstop rfl hall fun _ => by lia

include hr

/-- A declaration of constants, types or variables, if one starts here. -/
theorem groupDecl_reads : Reads (Spaced hi lo) (groupDecl r) fun g => Upto hi fun mid =>
    match g with
    | some (start, kind, specs, close) =>
      (Stmt.decl start kind specs close).Fits lo mid ∧ mid ≤ hi
    | none => mid = lo := by
  refine Reads.observe observes_kind fun k => ?_
  split
  · exact (group_reads fun _ => constSpec_reads hr).then_ fun g mid hg => .pure fun ts hts =>
      ⟨mid, hts, hg⟩
  · exact (group_reads fun _ => typeSpec_reads hr).then_ fun g mid hg => .pure fun ts hts =>
      ⟨mid, hts, hg⟩
  · exact (group_reads fun _ => varSpec_reads hr).then_ fun g mid hg => .pure fun ts hts =>
      ⟨mid, hts, hg⟩
  · exact .pure fun ts hts => ⟨lo, hts, rfl⟩

/-! ## Statements with headers -/

theorem plainCall_reads : Reads (Spaced hi lo) (plainCall r) fun e => Upto hi (e.Fits lo) := by
  refine (expr_reads hr).then_ fun x mid hx => ?_
  split
  · exact .pure fun ts hts => ⟨mid, hts, hx⟩
  · exact Reads.unexpected

omit hr in
/-- The statement in front of the first semicolon of a header may be left out. -/
theorem optional_reads {o : Op} {p : Parse Stmt} (hp : Reads (Spaced hi lo) p fun s =>
    Upto hi (s.Fits lo)) {k : Stmt → Parse α} {Q : α → List Token → Prop}
    (hk : ∀ s mid, s.Inside lo mid → Reads (Spaced hi mid) (k s) Q) :
    Reads (Spaced hi lo) (do
      let s ← if ← atOp o then pure Stmt.absent else p
      k s) Q := by
  refine Reads.observe (observes_atOp _) fun b => ?_
  split
  · exact Reads.pure_bind (hk .absent lo (.nil (Nat.le_refl _)))
  · exact hp.then_ fun s mid hs => hk s mid hs.laidOut

theorem ifHeader_reads : Reads (Spaced hi lo) (ifHeader r) fun h =>
    Upto hi (LaidOut lo (h.1.statements ++ h.2.statements)) := by
  refine Reads.observe (observes_atOp _) fun b => ?_
  extract_lets finish rest
  have hcond {init : Stmt} {mid : Pos} (hinit : init.Inside lo mid) :
      Reads (Spaced hi mid) (do
        let s ← simpleStmt r
        let cond ← asExpr s
        return (init, cond)) fun h => Upto hi (LaidOut lo (h.1.statements ++ h.2.statements)) := by
    refine (simpleStmt_reads hr).then_ fun s mid' hs => (asExpr_reads s).bind fun cond => ?_
    exact .pure fun ts ⟨hcond, hts⟩ =>
      ⟨mid', hts, LaidOut.append hinit (hcond _ _ hs.laidOut) (Nat.le_refl _)⟩
  have hfinish (init : Stmt) (mid : Pos) (hinit : init.Inside lo mid) :
      Reads (Spaced hi mid) (finish init) fun h =>
        Upto hi (LaidOut lo (h.1.statements ++ h.2.statements)) := by
    refine Reads.observe (observes_atOp _) fun b => ?_
    split
    · refine (asExpr_reads init).bind fun cond => .pure fun ts ⟨hcond, hts⟩ => ?_
      exact ⟨mid, hts, hcond _ _ hinit⟩
    · refine (expectOp_reads _).then_ fun semicolon mid' hsemicolon => ?_
      refine Reads.observe (observes_atOp _) fun b => ?_
      extract_lets
      split
      · exact Reads.unexpected_bind
      · exact hcond (hinit.mono (Nat.le_refl _) (by lia))
  have hrest : Reads (Spaced hi lo) (rest ()) fun h =>
      Upto hi (LaidOut lo (h.1.statements ++ h.2.statements)) :=
    inHeader_reads (optional_reads (simpleStmt_reads hr) hfinish)
  split
  · exact Reads.unexpected_bind
  · exact hrest

omit hr in
/-- An if statement ends with its else branch, if it has one. -/
theorem stop_ifChain (start : Pos) (init : Stmt) (cond : Expr) (body : Stmt) {other : Stmt}
    (hother : other.isAbsent = false) :
    (Stmt.ifChain start init cond body other).stop = other.stop := by
  cases other with
  | absent => cases hother
  | _ => rfl

/-- An if statement with all its else branches, by induction on the bound of the depth. -/
theorem ifStmt_reads : Reads (Spaced hi lo) (ifStmt r) fun s => UptoBrace hi (s.Fits lo) := by
  refine (expectKeyword_reads _).then_ fun start mid₁ hstart => ?_
  refine (ifHeader_reads hr).then_ fun (init, cond) mid₂ hheader => ?_
  refine (block_reads hr).then_ fun body mid₃ ⟨hbody, hstop⟩ => ?_
  have hbb := hbody.between
  have hinner := hheader.append hbody.laidOut (Nat.le_refl _)
  have hle := hinner.le
  -- the chain ends where what comes behind `else` does, and the body ends before that
  have hother {other : Stmt} {mid₄ mid₅ : Pos} (h : other.Fits mid₄ mid₅) (hle' : mid₃ ≤ mid₄) :
      (Stmt.ifChain start init cond body other).Fits lo mid₅ := by
    have hob := h.between
    have hend := stop_ifChain start init cond body h.present
    refine .of_inner start rfl rfl (hinner.append h.laidOut hle') (fun t ht => hend ▸ ?_)
      fun _ => by lia
    rcases List.mem_append.mp ht with ht | ht
    · have htb := hinner.between t ht
      lia
    · exact h.stop_le ht
  refine Reads.observe (observes_atKeyword _) fun b => ?_
  split
  · refine Reads.advance (Reads.observe (observes_atKeyword _) fun b => ?_)
    split
    · refine (hr.stmt _).bind fun other => .pure fun ts hts => hts.imp fun mid₄ h => ?_
      exact hother h (Nat.le_refl _)
    · refine (block_reads hr).then_ fun other mid₄ h => endStatement_reads fun _ => ?_
      exact .pure fun ts hts => .inl ⟨mid₄, hts, hother h.1 (Nat.le_refl _)⟩
  · refine endStatement_reads fun _ => .pure fun ts hts => .inl ⟨mid₃, hts, ?_⟩
    have hall := hinner.append (.nil (Nat.le_refl _)) (Nat.le_refl _)
    exact .of_inside start body.stop rfl rfl rfl hall fun _ => by lia

omit hr in
/-- A clause ends with the last statement in it. -/
theorem clause_fits {s : Stmt} {heads : List Stmt} {ss : List Stmt}
    {start first colon after last : Pos} (hpos : s.pos = start)
    (hstop : s.stop = Stmt.stopOfLast (colon + 1) ss)
    (hs : s.statements = s :: (heads ++ Stmt.statementsOfAll ss)) (hheads : LaidOut first heads mid)
    (hss : InTurn Stmt.Fits after ss last) (hlo : lo ≤ start) (hstart : start < first)
    (hcolon : mid ≤ colon) (hafter : colon < after) : s.Fits lo last := by
  obtain ⟨hle, hhi, hbehind⟩ := Stmt.Fits.stopOfLast hss hafter
  have hheadsle := hheads.le
  refine .of_inner start hpos hs (hheads.append (Stmt.Fits.all hss) (by lia)) (fun t ht => ?_)
    fun _ => by lia
  rw [hstop]
  rcases List.mem_append.mp ht with ht | ht
  · have htb := hheads.between t ht
    lia
  · exact hbehind t ht

theorem caseClause_reads : Reads (Spaced hi lo) (caseClause r) fun s =>
    UptoBrace hi (s.Fits lo) := by
  refine pos_reads fun t => ?_
  have hbody (exprs : Option (List Expr)) {first mid : Pos} (hlo : lo ≤ t.pos) (ht : t.pos < first)
      (hexprs : LaidOut first (Expr.statementsOfAll (exprs.getD [])) mid) :
      Reads (Spaced hi mid) (do
        let colon ← expectOp .colon
        return Stmt.caseClause t.pos exprs.isNone (exprs.getD []) colon (← stmtList r)) fun s =>
          UptoBrace hi (s.Fits lo) := by
    refine (expectOp_reads _).then_ fun colon mid' hcolon => (stmtList_reads hr).bind fun ss => ?_
    refine .pure fun ts hts => hts.imp fun _ hss => ?_
    exact clause_fits rfl rfl rfl hexprs hss hlo ht hcolon.1 hcolon.2.1
  refine atKeyword_next (fun hkind => ?_) ?_
  · rw [if_pos rfl]
    have hkind : t.kind ≠ .eof := by simp [hkind]
    refine Reads.take hkind fun hsound hlo _ => (exprList_reads hr).then_ fun es mid ⟨_, hes⟩ => ?_
    exact Reads.pure_bind (hbody (some es) hlo (hsound.pos_lt_stop hkind) (Expr.Fits.all hes))
  · rw [if_neg Bool.false_ne_true]
    refine (expectKeyword_next _).then_ fun start mid ⟨hstart, hlo, _, hlt, _⟩ => ?_
    subst hstart
    exact Reads.pure_bind (hbody none hlo hlt (.nil (Nat.le_refl _)))

omit hr in
/-- A clause does not start with a closing brace. -/
theorem atClause_reads {P : List Token → Prop} : Reads P atClause fun b ts =>
    P ts ∧ (b = true → ∃ t : Token, t.Next ts ∧ t.kind ≠ .op .rbrace) := by
  refine Reads.of_next fun t =>
    atKeyword_next (fun hkind => ?_) (atKeyword_next (fun hkind => ?_) ?_)
  · refine Reads.observe (observes_atKeyword _) fun b => .pure fun ts hts => ⟨hts.1, fun _ => ?_⟩
    exact ⟨t, hts.2, by simp [hkind]⟩
  · exact .pure fun ts hts => ⟨hts.1, fun _ => ⟨t, hts.2, by simp [hkind]⟩⟩
  · exact .pure fun ts hts => ⟨hts.1, nofun⟩

omit hr in
/-- The clauses of a statement between braces. -/
theorem clauses_reads {item : Parse Stmt} {k : Pos → List Stmt → Pos → Parse α}
    {Q : α → List Token → Prop}
    (hitem : ∀ lo, Reads (Spaced hi lo) item fun s => UptoBrace hi (s.Fits lo))
    (hk : ∀ opening ss close mid, (Stmt.block opening ss close).Fits lo mid → close + 1 = mid →
      Reads (Spaced hi mid) (k opening ss close) Q) :
    Reads (Spaced hi lo) (do
      let opening ← expectOp .lbrace
      let clauses ← many atClause item
      let close ← expectOp .rbrace
      k opening clauses close) Q := by
  refine (expectOp_reads _).then_ fun opening mid hopening => ?_
  refine (stmts_reads (fun _ => atClause_reads) hitem).bind fun ss => ?_
  refine expectBrace_reads.then_ fun close mid' ⟨hmid, last, hss, hlast⟩ => ?_
  subst hmid
  exact hk _ _ _ _ (block_fits hss hopening.1 hopening.2.1 hlast) rfl

omit hr in
/-- Whether a switch is over types is told without reading on. -/
theorem observes_typeSwitchGuard (s : Stmt) : Observes (typeSwitchGuard s) := by
  unfold typeSwitchGuard
  split
  · exact observes_pure _
  · split
    · split
      · exact observes_pure _
      · split
        · -- the fault is thrown, so there is no run to speak of
          intro st b st' hrun
          have hfalse := Reads.unexpected (P := fun _ => True) (Q := fun (_ : Bool) _ => False)
          exact (hfalse st b st' trivial hrun).elim
        · exact observes_pure _
    · exact observes_pure _
  · exact observes_pure _

/-- A switch over a value or over types. -/
theorem switchStmt_reads : Reads (Spaced hi lo) (switchStmt r) fun s => Upto hi (s.Fits lo) := by
  refine (expectKeyword_reads _).then_ fun start mid₁ hstart => ?_
  refine Reads.observe (observes_atOp _) fun b => ?_
  extract_lets +onlyGivenNames rest
  have hrest (init guard : Stmt) {mid₂ mid₃ : Pos} (hinit : init.Inside mid₁ mid₂)
      (hguard : guard.Inside mid₂ mid₃) :
      Reads (Spaced hi mid₃) (rest (init, guard)) fun s => Upto hi (s.Fits lo) := by
    refine Reads.observe (observes_typeSwitchGuard _) fun isTypeSwitch => ?_
    refine clauses_reads (fun _ => caseClause_reads hr) fun opening ss close mid₄ hbody hclose => ?_
    have hbb := hbody.between
    have hfits {s : Stmt} (tag : List Stmt) (htag : LaidOut mid₂ tag mid₃) (hpos : s.pos = start)
        (hstop : s.stop = close + 1) (hs : s.statements = s :: (init.statements ++ tag ++
          (Stmt.block opening ss close).statements)) : s.Fits lo mid₄ := by
      have hall := LaidOut.append hinit htag (Nat.le_refl _)
      exact .of_inside start (close + 1) hpos hstop hs (hall.append hbody.laidOut (Nat.le_refl _))
        fun _ => by lia
    refine endStatement_reads fun _ => ?_
    split
    · exact .pure fun ts hts => ⟨mid₄, hts, hfits guard.statements hguard rfl rfl rfl⟩
    · refine (asExpr_reads guard).bind fun tag => .pure fun ts ⟨htag, hts⟩ => ?_
      exact ⟨mid₄, hts, hfits tag.statements (htag _ _ hguard) rfl rfl rfl⟩
  split
  · exact Reads.pure_bind (hrest _ _ (.nil (Nat.le_refl _)) (.nil (Nat.le_refl _)))
  · refine Reads.then_ (Q := fun g mid₃ => ∃ mid₂, g.1.Inside mid₁ mid₂ ∧ g.2.Inside mid₂ mid₃)
      (inHeader_reads (optional_reads (simpleStmt_reads hr) fun first mid hfirst => ?_))
      fun (init, guard) mid₃ ⟨mid₂, hinit, hguard⟩ => hrest init guard hinit hguard
    refine Reads.observe (observes_atOp _) fun b => ?_
    split
    · refine Reads.advance (Reads.observe (observes_atOp _) fun b => ?_)
      split
      · exact .pure fun ts hts => ⟨mid, hts, mid, hfirst, .nil (Nat.le_refl _)⟩
      · exact (simpleStmt_reads hr).then_ fun guard mid' hguard => .pure fun ts hts =>
          ⟨mid', hts, mid, hfirst, hguard.laidOut⟩
    · exact .pure fun ts hts => ⟨mid, hts, mid₁, .nil (Nat.le_refl _), hfirst⟩

theorem commClause_reads : Reads (Spaced hi lo) (commClause r) fun s =>
    UptoBrace hi (s.Fits lo) := by
  refine pos_reads fun t => ?_
  have hbody (comm : Option Stmt) {first mid : Pos} (hlo : lo ≤ t.pos) (ht : t.pos < first)
      (hcomm : (comm.getD .absent).Inside first mid) :
      Reads (Spaced hi mid) (do
        let colon ← expectOp .colon
        return Stmt.commClause t.pos comm.isNone (comm.getD .absent) colon (← stmtList r)) fun s =>
          UptoBrace hi (s.Fits lo) := by
    refine (expectOp_reads _).then_ fun colon mid' hcolon => (stmtList_reads hr).bind fun ss => ?_
    refine .pure fun ts hts => hts.imp fun _ hss => ?_
    exact clause_fits rfl rfl rfl hcomm hss hlo ht hcolon.1 hcolon.2.1
  refine atKeyword_next (fun hkind => ?_) ?_
  · rw [if_pos rfl]
    have hkind : t.kind ≠ .eof := by simp [hkind]
    refine Reads.take hkind fun hsound hlo _ => ?_
    have hlt := hsound.pos_lt_stop hkind
    refine (exprList_reads hr).then_ fun lhs mid hlhs => ?_
    obtain ⟨hne, hlhs⟩ := hlhs
    refine Reads.observe (observes_atOp _) fun b => ?_
    extract_lets rest
    split
    · refine Reads.advance ?_
      split
      · next x =>
        obtain ⟨_, hx, hmid⟩ := hlhs
        cases hmid
        refine (expr_reads hr).then_ fun y mid' hy => Reads.pure_bind (hbody _ hlo hlt ?_)
        have hxb := hx.bounds
        have hyb := hy.bounds
        have hsend : (Stmt.send x y).Fits t.stop mid' := .of_inside x.pos y.stop rfl rfl rfl
          (hx.inside.append hy.inside (by lia)) fun _ => by lia
        exact hsend.laidOut
      · exact Reads.unexpected_bind
    · refine Reads.observe (observes_atOp _) fun b => Reads.observe (observes_atOp _) fun b' => ?_
      split
      · have hrest : Reads (Spaced hi mid) (rest ()) fun s => UptoBrace hi (s.Fits lo) := by
          refine Reads.observe (observes_atOp _) fun b => Reads.advance ?_
          refine (expr_reads hr).then_ fun y mid' hy => Reads.pure_bind (hbody _ hlo hlt ?_)
          have hys : InTurn Expr.Fits mid [y] mid' := ⟨mid', hy, rfl⟩
          exact (assign_fits hlhs hne hys (List.cons_ne_nil _ _)).laidOut
        split
        · exact Reads.unexpected_bind
        · exact hrest
      · split
        · next x =>
          obtain ⟨_, hx, hmid⟩ := hlhs
          cases hmid
          refine Reads.pure_bind (hbody _ hlo hlt ?_)
          have hxb := hx.bounds
          have hexpr : (Stmt.expr x).Fits t.stop mid :=
            .of_inside x.pos x.stop rfl rfl rfl hx.inside fun _ => by lia
          exact hexpr.laidOut
        · exact Reads.unexpected_bind
  · rw [if_neg Bool.false_ne_true]
    refine (expectKeyword_next _).then_ fun start mid ⟨hstart, hlo, _, hlt, _⟩ => ?_
    subst hstart
    exact Reads.pure_bind (hbody none hlo hlt (.nil (Nat.le_refl _)))

theorem selectStmt_reads : Reads (Spaced hi lo) (selectStmt r) fun s => Upto hi (s.Fits lo) := by
  refine (expectKeyword_reads _).then_ fun start mid hstart => ?_
  refine clauses_reads (fun _ => commClause_reads hr) fun opening ss close mid' hbody hclose => ?_
  refine endStatement_reads fun _ => .pure fun ts hts => ⟨mid', hts, ?_⟩
  have hbb := hbody.between
  exact .of_inside start (close + 1) rfl rfl rfl hbody.laidOut fun _ => by lia

/-! ## Loops -/

omit hr in
/-- The statements in the header of a loop. -/
def LoopHeader.statements : LoopHeader → List Stmt
  | .range lhs _ subject => Expr.statementsOfAll lhs ++ subject.statements
  | .plain init cond post => init.statements ++ cond.statements ++ post.statements

theorem loopHeader_reads : Reads (Spaced hi lo) (loopHeader r) fun h =>
    Upto hi (LaidOut lo h.statements) := by
  refine Reads.observe (observes_atOp _) fun b => ?_
  split
  · exact .pure fun ts hts => ⟨lo, hts, .nil (Nat.le_refl _)⟩
  refine inHeader_reads (Reads.observe (observes_atKeyword _) fun b => ?_)
  split
  · exact Reads.advance ((expr_within hr).then_ fun e mid he => .pure fun ts hts => ⟨mid, hts, he⟩)
  refine Reads.observe (observes_atOp _) fun b => ?_
  extract_lets +onlyGivenNames rest
  have hplain (init : Stmt) (mid : Pos) (hinit : init.Inside lo mid) :
      Reads (Spaced hi mid) (rest (.stmt init)) fun h => Upto hi (LaidOut lo h.statements) := by
    refine Reads.observe (observes_atOp _) fun b => ?_
    split
    · refine Reads.advance (Reads.observe (observes_atOp _) fun b => ?_)
      extract_lets withCond rest'
      have hrest' : Reads (Spaced hi mid) (rest' ()) fun h =>
          Upto hi (LaidOut lo h.statements) := by
        refine optional_reads (simpleStmt_reads hr) fun cond mid₁ hcond => ?_
        refine endStatement_reads fun _ => ?_
        refine optional_reads (simpleStmt_reads hr) fun post mid₂ hpost => ?_
        refine (asExpr_reads cond).bind fun e => .pure fun ts ⟨he, hts⟩ => ⟨mid₂, hts, ?_⟩
        have hhead := LaidOut.append hinit (he _ _ hcond) (Nat.le_refl _)
        exact hhead.append hpost (Nat.le_refl _)
      split
      · exact Reads.unexpected_bind
      · exact hrest'
    · refine (asExpr_reads init).bind fun e => .pure fun ts ⟨he, hts⟩ => ⟨mid, hts, ?_⟩
      exact (he _ _ hinit).append (.nil (Nat.le_refl _)) (Nat.le_refl _)
  have hrest (first : Simple) (mid : Pos) (hfirst : LaidOut lo first.statements mid) :
      Reads (Spaced hi mid) (rest first) fun h => Upto hi (LaidOut lo h.statements) := by
    cases first with
    | stmt init => exact hplain init mid hfirst
    | range lhs op subject => exact .pure fun ts hts => ⟨mid, hts, hfirst⟩
  split
  · exact Reads.pure_bind (hrest (.stmt .absent) lo (.nil (Nat.le_refl _)))
  · refine Reads.then_ (Q := fun s mid => s.Fits lo mid) ((simple_reads hr _).strengthen
      fun s ts hts => hts.resolve_right fun hlabel => nomatch hlabel.1) fun first mid hfirst => ?_
    exact hrest first mid hfirst.laidOut

theorem forStmt_reads : Reads (Spaced hi lo) (forStmt r) fun s => Upto hi (s.Fits lo) := by
  refine (expectKeyword_reads _).then_ fun start mid₁ hstart => ?_
  refine (loopHeader_reads hr).then_ fun header mid₂ hheader => ?_
  refine (block_reads hr).then_ fun body mid₃ ⟨hbody, hstop⟩ => endStatement_reads fun _ => ?_
  have hle := hheader.le
  have hbb := hbody.between
  have hall := hheader.append hbody.laidOut (Nat.le_refl _)
  have hfits {s : Stmt} {heads : List Stmt} (hpos : s.pos = start) (hend : s.stop = body.stop)
      (hs : s.statements = s :: (heads ++ body.statements)) (hheads : heads = header.statements) :
      s.Fits lo mid₃ := by
    subst hheads
    exact .of_inside start body.stop hpos hend hs hall fun _ => by lia
  split
  · exact .pure fun ts hts => ⟨mid₃, hts, hfits rfl rfl rfl rfl⟩
  · split
    · exact .pure fun ts hts => ⟨mid₃, hts, hfits rfl rfl rfl rfl⟩
    · exact .pure fun ts hts => ⟨mid₃, hts, hfits rfl rfl rfl (by
        simp [LoopHeader.statements, Expr.statementsOfAll, Expr.statements])⟩
    · exact .pure fun ts hts => ⟨mid₃, hts, hfits rfl rfl rfl (by
        simp [LoopHeader.statements, Expr.statementsOfAll])⟩
    · exact Reads.unexpected

/-! ## All statements -/

omit hr in
/-- A statement that is a keyword and maybe a name. -/
theorem branchStmt_reads {keyword : Keyword} {kind : BranchKind} {width : Nat}
    (hwidth : ∀ e ∈ Keyword.spellings, e.1 = keyword → e.2.length = width) :
    Reads (Spaced hi lo) (branchStmt keyword kind width) fun s => Upto hi (s.Fits lo) := by
  refine (expectKeyword_reads _).then_ fun start mid ⟨hlo, _, hlt, text, htext, hmid⟩ => ?_
  rw [hwidth _ htext rfl] at hmid
  have hfits {label : Option Ident} {stop mid' : Pos} (hlabel : mid ≤ stop) (hhi : stop ≤ mid')
      (hstop : (Stmt.branch start kind (start + width) label).stop = stop) :
      (Stmt.branch start kind (start + width) label).Fits lo mid' :=
    .of_inside start stop rfl hstop rfl (.nil (Nat.le_refl mid)) fun _ => by lia
  refine Reads.observe observes_atIdent fun b => ?_
  extract_lets
  split
  · refine ident_reads.then_ fun id mid' hid => Reads.pure_bind (endStatement_reads fun _ => ?_)
    have hidb := hid.bounds
    exact .pure fun ts hts => ⟨mid', hts, hfits (by lia) hid.stop_le rfl⟩
  · refine Reads.pure_bind (endStatement_reads fun _ => .pure fun ts hts => ⟨mid, hts, ?_⟩)
    exact hfits (Nat.le_of_eq hmid.symm) (Nat.le_of_eq hmid) rfl

omit hr in
/-- An empty statement takes one position, or none. -/
theorem empty_fits {p : Pos} {implicit : Bool} (hlo : lo ≤ p) (hhi : p < hi) :
    (Stmt.empty p implicit).Fits lo hi := by
  have hstop : p ≤ (Stmt.empty p implicit).stop ∧ (Stmt.empty p implicit).stop ≤ p + 1 := by
    cases implicit <;> simp [Stmt.stop]
  exact .of_inner p rfl rfl (.nil (Nat.le_refl p)) nofun fun _ => by lia

omit hr in
/-- A return statement ends with its last result, or with the keyword. -/
theorem giveBack_fits {t : Token} {results : List Expr} (hkind : t.kind = .keyword .kwReturn)
    (hsound : t.Sound) (hlo : lo ≤ t.pos) (h : InTurn Expr.Fits t.stop results mid) :
    (Stmt.giveBack t.pos results).Fits lo mid := by
  have hwidth : ∀ e ∈ Keyword.spellings, e.1 = .kwReturn → e.2.length = 6 := by decide
  have hstop : t.stop = t.pos + 6 := by
    rw [Token.Sound, hkind] at hsound
    exact congrArg (t.pos + ·) (hwidth _ (Keyword.mem_spellings_of_ofText? hsound) rfl)
  obtain ⟨hlaid, hhi⟩ := Expr.Fits.stopOfLast h (Nat.le_of_eq hstop.symm)
  exact .of_inside t.pos (Expr.stopOfLast (t.pos + 6) results) rfl rfl rfl hlaid fun _ => by lia

omit hr in
/-- A statement with the end that has to follow it. -/
theorem ended_reads {s : Stmt} (hs : s.Fits lo mid) : Reads (Spaced hi mid) (do
    endStatement
    return s) fun s => UptoBrace hi (s.Fits lo) :=
  endStatement_reads fun _ => .pure fun _ hts => .inl ⟨mid, hts, hs⟩

/-- A statement that is a keyword and a call. -/
theorem callStmt_reads {t : Token} {w : Keyword} {make : Pos → Expr → Stmt}
    (hkind : t.kind = .keyword w) (hpos : ∀ call, (make t.pos call).pos = t.pos)
    (hstop : ∀ call, (make t.pos call).stop = call.stop)
    (hs : ∀ call, (make t.pos call).statements = make t.pos call :: call.statements) :
    Reads (fun ts => Spaced hi lo ts ∧ t.Next ts) (do
      advance
      let call ← plainCall r
      endStatement
      return make t.pos call) fun s => UptoBrace hi (s.Fits lo) := by
  have hkind : t.kind ≠ .eof := by simp [hkind]
  refine Reads.take hkind fun hsound hlo _ => (plainCall_reads hr).then_ fun call mid hcall => ?_
  have hlt := hsound.pos_lt_stop hkind
  have hcb := hcall.bounds
  exact ended_reads (.of_inside t.pos call.stop (hpos call) (hstop call) (hs call) hcall.inside
    fun _ => by lia)

/-- A statement of any kind. Which one it is is told by its first token. -/
theorem stmtRule_reads : Reads (Spaced hi lo) (stmtRule r) fun s => UptoBrace hi (s.Fits lo) := by
  refine (groupDecl_reads hr).then_ fun g mid hg => ?_
  cases g with
  | some g => exact .pure fun ts hts => .inl ⟨mid, hts, hg.1⟩
  | none =>
    cases hg
    refine Reads.peek fun t => ?_
    have hupto {p : Parse Stmt} (hp : Reads (Spaced hi lo) p fun s => Upto hi (s.Fits lo)) :
        Reads (fun ts => Spaced hi lo ts ∧ t.Next ts) p fun s => UptoBrace hi (s.Fits lo) :=
      Reads.forget (hp.strengthen fun _ _ => .inl)
    split
    · refine Reads.forget ((simple_reads hr _).bind fun s => ?_)
      split
      · next label body =>
        -- no end is read behind a label, so the statement may end as the one inside it
        refine .pure fun ts hts => ?_
        rcases hts with hts | ⟨-, id, body', heq, hts⟩
        · exact .inl hts
        · cases heq
          exact hts
      · next s hs =>
        refine Reads.weaken (P := Upto hi (s.Fits lo)) (Reads.upto fun _ => ended_reads)
          fun ts hts => ?_
        refine hts.resolve_right fun ⟨_, id, body, heq, _⟩ => ?_
        cases heq
        exact hs id body rfl
      · exact Reads.unexpected
    · split
      · next hkind => exact callStmt_reads hr hkind (fun _ => rfl) (fun _ => rfl) fun _ => rfl
      · next hkind => exact callStmt_reads hr hkind (fun _ => rfl) (fun _ => rfl) fun _ => rfl
      · next hkind =>
        have hkind' : t.kind ≠ .eof := by simp [hkind]
        refine Reads.take hkind' fun hsound hlo _ => Reads.observe observes_kind fun k => ?_
        extract_lets
        split
        · exact Reads.pure_bind (ended_reads (giveBack_fits hkind hsound hlo rfl))
        · exact (exprList_reads hr).then_ fun results mid ⟨_, h⟩ =>
            ended_reads (giveBack_fits hkind hsound hlo h)
      · exact hupto (branchStmt_reads (by decide))
      · exact hupto (branchStmt_reads (by decide))
      · exact hupto (branchStmt_reads (by decide))
      · exact hupto (branchStmt_reads (by decide))
      · exact Reads.forget ((block_reads hr).then_ fun b mid hb => ended_reads hb.1)
      · exact Reads.forget (ifStmt_reads hr)
      · exact hupto (switchStmt_reads hr)
      · exact hupto (selectStmt_reads hr)
      · exact hupto (forStmt_reads hr)
      · next hkind =>
        have hkind' : t.kind ≠ .eof := by simp [hkind]
        refine Reads.take hkind' fun hsound hlo _ => .pure fun ts hts => .inl ⟨t.stop, hts, ?_⟩
        have hlt := hsound.pos_lt_stop hkind'
        exact empty_fits hlo hlt
      · next hkind =>
        -- the brace is not passed over
        refine .pure fun ts ⟨hts, hnext⟩ => .inr ⟨t, lo, hnext, hkind, hts, ?_⟩
        have hlo := (hts.of_next hnext (by simp [hkind])).1
        exact ⟨hlo, empty_fits hlo (Nat.lt_succ_self _)⟩
      · exact Reads.unexpected

end

end Parse

end CaseCover
