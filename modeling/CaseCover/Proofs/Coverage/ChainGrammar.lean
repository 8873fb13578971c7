import CaseCover.Proofs.Analysis.Traversal

/-!
# The grammar of chains

A chain is recognised exactly if it has the form of the grammar below, and its comparisons fit
together. A condition is a disjunction of comparisons, with parentheses around disjunctions and
comparisons (`Expr.IsDisjunction`); a chain is one condition after the other, without an init
statement behind the first link and without a final else (`Stmt.IsChainOf`).

The recogniser goes through the comparisons from left to right, wherever they stand: reading a
condition or a chain is adding its comparisons one by one (`addCondition_eq_some_iff`,
`addLinks_eq_some_iff`). What is added to a chain with a discriminant must be compared with it
(`addAll_eq_some_iff`), and the first comparison makes its left side the discriminant.
-/

namespace CaseCover

/-- A comparison: what is compared, and with what. -/
abbrev Comparison := Expr × Expr

/-- A condition is a disjunction of these comparisons, from left to right. -/
inductive Expr.IsDisjunction : Expr → List Comparison → Prop where
  | comparison (l r : Expr) : IsDisjunction (.binary l .eql r) [(l, r)]
  | either {x y : Expr} {cs ds : List Comparison} (left : IsDisjunction x cs)
      (right : IsDisjunction y ds) : IsDisjunction (.binary x .lor y) (cs ++ ds)
  | paren {inner : Expr} {cs : List Comparison} (start close : Pos)
      (inside : IsDisjunction inner cs) : IsDisjunction (.paren start inner close) cs

/-- An else part is nothing, or a chain of if statements without init statements that ends with
nothing. These are the comparisons in its conditions. -/
inductive Stmt.IsElseOf : Stmt → List Comparison → Prop where
  | nothing : IsElseOf .absent []
  | link {cond : Expr} {other : Stmt} {cs ds : List Comparison} (pos : Pos) (body : Stmt)
      (first : cond.IsDisjunction cs) (rest : IsElseOf other ds) :
      IsElseOf (.ifChain pos .absent cond body other) (cs ++ ds)

/-- An if statement, maybe with an init statement, whose condition and else part have these
comparisons. -/
inductive Stmt.IsChainOf : Stmt → List Comparison → Prop where
  | chain {cond : Expr} {other : Stmt} {cs ds : List Comparison} (pos : Pos) (init body : Stmt)
      (first : cond.IsDisjunction cs) (rest : other.IsElseOf ds) :
      IsChainOf (.ifChain pos init cond body other) (cs ++ ds)

/-- The comparisons are between one discriminant, which is compared first, and literals, and the
discriminant has a union of literals as type. -/
structure AreOver (o : Shapes) (d : Expr) (cs : List Comparison) : Prop where
  first : cs.head?.map (·.1) = some d
  pure : ∀ c ∈ cs, c.1.isPure = true ∧ c.2.isPure = true
  same : ∀ c ∈ cs, c.1.printsLike d = true
  literals : ∀ c ∈ cs, ∃ l, o c.2 = .literal l
  closed : ∃ ls, ls ≠ [] ∧ o d = .union (ls.map .literal)

/-! ## One reading -/

/-- A condition can be read as a disjunction in one way only. -/
theorem Expr.IsDisjunction.unique {e : Expr} {cs ds : List Comparison} (h : e.IsDisjunction cs)
    (h' : e.IsDisjunction ds) : cs = ds := by
  induction h generalizing ds with
  | comparison l r =>
    cases h'
    rfl
  | either left right ihx ihy =>
    cases h' with
    | either left' right' => rw [ihx left', ihy right']
  | paren start close inside ih =>
    cases h' with
    | paren _ _ inside' => exact ih inside'

/-- So can what follows an `else`. -/
theorem Stmt.IsElseOf.unique {s : Stmt} {cs ds : List Comparison} (h : s.IsElseOf cs)
    (h' : s.IsElseOf ds) : cs = ds := by
  induction h generalizing ds with
  | nothing =>
    cases h'
    rfl
  | link pos body first rest ih =>
    cases h' with
    | link _ _ first' rest' => rw [first.unique first', ih rest']

/-- So can a chain. -/
theorem Stmt.IsChainOf.unique {s : Stmt} {cs ds : List Comparison} (h : s.IsChainOf cs)
    (h' : s.IsChainOf ds) : cs = ds := by
  cases h with
  | chain pos init body first rest =>
    cases h' with
    | chain _ _ _ first' rest' => rw [first.unique first', rest.unique rest']

/-! ## One comparison after the other -/

namespace Chain

variable {o : Shapes} {c c' : Chain}

/-- The chain after comparisons. -/
def addAll (o : Shapes) (c : Chain) (cs : List Comparison) : Option Chain :=
  cs.foldlM (fun c p => c.addEquality o p.1 p.2) c

theorem addAll_nil (o : Shapes) (c : Chain) : c.addAll o [] = some c := rfl

theorem addAll_cons (o : Shapes) (c : Chain) (p : Comparison) (cs : List Comparison) :
    c.addAll o (p :: cs) = (c.addEquality o p.1 p.2).bind fun c => c.addAll o cs := rfl

/-- Comparisons can be added in two parts. -/
theorem addAll_append (o : Shapes) (c : Chain) (cs ds : List Comparison) :
    c.addAll o (cs ++ ds) = (c.addAll o cs).bind fun c => c.addAll o ds := by
  induction cs generalizing c with
  | nil => rfl
  | cons p cs ih =>
    rw [List.cons_append, addAll_cons, addAll_cons, Option.bind_assoc]
    exact congrArg _ (funext fun c => ih c)

/-- A condition is accepted exactly if it is a disjunction whose comparisons can be added. -/
theorem addCondition_eq_some_iff {e : Expr} :
    c.addCondition o e = some c' ↔ ∃ cs, e.IsDisjunction cs ∧ c.addAll o cs = some c' := by
  constructor
  · intro h
    fun_induction addCondition o c e generalizing c' with
    | case1 c start inner close ih =>
      obtain ⟨cs, hcs, hadd⟩ := ih h
      exact ⟨cs, .paren start close hcs, hadd⟩
    | case2 c x y ihx ihy =>
      obtain ⟨d, hx, hy⟩ := Option.bind_eq_some_iff.mp h
      obtain ⟨cs, hcs, haddx⟩ := ihx hx
      obtain ⟨ds, hds, haddy⟩ := ihy d hy
      refine ⟨cs ++ ds, .either hcs hds, ?_⟩
      rw [addAll_append, haddx]
      exact haddy
    | case3 c x y =>
      refine ⟨[(x, y)], .comparison x y, ?_⟩
      rw [addAll_cons, h]
      rfl
    | case4 => cases h
  · rintro ⟨cs, hcs, hadd⟩
    induction hcs generalizing c c' with
    | comparison l r =>
      obtain ⟨d, hd, hrest⟩ := Option.bind_eq_some_iff.mp hadd
      cases hrest
      exact hd
    | either left right ihx ihy =>
      rw [addAll_append] at hadd
      obtain ⟨d, hx, hy⟩ := Option.bind_eq_some_iff.mp hadd
      rw [addCondition, ihx hx]
      exact ihy hy
    | paren start close inside ih =>
      rw [addCondition]
      exact ih hadd

/-- Else branches are accepted exactly if they are of the form, and their comparisons can be added.
Only an if statement without anything in it does not count as one. -/
theorem addLinks_eq_some_iff {s : Stmt} (hend : Analysis.chainEnd s ≠ .bareIf) :
    c.addLinks o s = some c' ↔ ∃ cs, s.IsElseOf cs ∧ c.addAll o cs = some c' := by
  constructor
  · intro h
    fun_induction addLinks o c s generalizing c' with
    | case1 c => exact ⟨[], .nothing, h⟩
    | case2 c => exact absurd rfl hend
    | case3 c pos cond body other ih =>
      obtain ⟨d, hcond, hother⟩ := Option.bind_eq_some_iff.mp h
      obtain ⟨cs, hcs, hadd⟩ := addCondition_eq_some_iff.mp hcond
      obtain ⟨ds, hds, hrest⟩ := ih d hend hother
      refine ⟨cs ++ ds, .link pos body hcs hds, ?_⟩
      rw [addAll_append, hadd]
      exact hrest
    | case4 => cases h
  · rintro ⟨cs, hcs, hadd⟩
    induction hcs generalizing c c' with
    | nothing => exact hadd
    | link pos body first rest ih =>
      rw [addAll_append] at hadd
      obtain ⟨d, hcond, hother⟩ := Option.bind_eq_some_iff.mp hadd
      rw [addLinks, addCondition_eq_some_iff.mpr ⟨_, first, hcond⟩]
      exact ih hend hother

/-! ## Comparisons that fit together -/

theorem printsLike_self (e : Expr) : e.printsLike e = true := beq_self_eq_true e.text

/-- The first comparison fits as if its left side had been the discriminant before. -/
theorem addEquality_start (o : Shapes) (l r : Expr) :
    start.addEquality o l r = (⟨some l, []⟩ : Chain).addEquality o l r := by
  unfold addEquality
  split
  · exact (if_pos (printsLike_self l)).symm
  · rfl

/-- With a discriminant, an equality is added if both sides are pure, the left one is the
discriminant and the right one a literal. Its value joins those handled. -/
theorem addEquality_eq_some_iff {d l r : Expr} {vs : List Value} :
    (⟨some d, vs⟩ : Chain).addEquality o l r = some c' ↔
      (l.isPure = true ∧ r.isPure = true) ∧ l.printsLike d = true ∧
        ∃ v, (o r).literalValue? = some v ∧ c' = ⟨some d, vs ++ [v]⟩ := by
  by_cases hpure : (l.isPure && r.isPure) = true
  · rw [addEquality, if_pos hpure]
    rw [Bool.and_eq_true] at hpure
    by_cases hsame : l.printsLike d = true
    · simp only [if_pos hsame, Option.map_eq_some_iff]
      constructor
      · rintro ⟨v, hv, rfl⟩
        exact ⟨hpure, hsame, v, hv, rfl⟩
      · rintro ⟨-, -, v, hv, rfl⟩
        exact ⟨v, hv, rfl⟩
    · simp [hsame]
  · rw [addEquality, if_neg hpure]
    rw [Bool.and_eq_true] at hpure
    simp [hpure]

/-- With a discriminant, comparisons are added if each of them is between the discriminant and a
literal. Their literals are what the chain handles in addition. -/
theorem addAll_eq_some_iff {d : Expr} {vs : List Value} {cs : List Comparison} :
    (⟨some d, vs⟩ : Chain).addAll o cs = some c' ↔
      (∀ p ∈ cs, (p.1.isPure = true ∧ p.2.isPure = true) ∧ p.1.printsLike d = true) ∧
        ∃ ws, ws.map some = cs.map (fun p => (o p.2).literalValue?) ∧ c' = ⟨some d, vs ++ ws⟩ := by
  induction cs generalizing vs with
  | nil =>
    rw [addAll_nil]
    constructor
    · rintro ⟨⟩
      exact ⟨List.forall_mem_nil _, [], rfl, by rw [List.append_nil]⟩
    · rintro ⟨-, ws, hws, rfl⟩
      obtain rfl := List.map_eq_nil_iff.mp hws
      rw [List.append_nil]
  | cons p cs ih =>
    rw [addAll_cons, Option.bind_eq_some_iff, List.forall_mem_cons]
    constructor
    · rintro ⟨next, hfirst, hrest⟩
      obtain ⟨hpure, hsame, v, hv, rfl⟩ := addEquality_eq_some_iff.mp hfirst
      obtain ⟨hall, ws, hws, rfl⟩ := ih.mp hrest
      refine ⟨⟨⟨hpure, hsame⟩, hall⟩, v :: ws, ?_, by simp⟩
      rw [List.map_cons, List.map_cons, hws, hv]
    · rintro ⟨⟨⟨hpure, hsame⟩, hall⟩, ws, hws, rfl⟩
      cases ws with
      | nil => cases hws
      | cons v ws =>
        obtain ⟨hv, hws⟩ := List.cons.inj hws
        refine ⟨⟨some d, vs ++ [v]⟩, addEquality_eq_some_iff.mpr ⟨hpure, hsame, v, hv.symm, rfl⟩,
          ih.mpr ⟨hall, ws, hws, by simp⟩⟩

end Chain

/-! ## Closed unions -/

theorem Shape.literalValue?_eq_some_iff {s : Shape} {v : Value} :
    s.literalValue? = some v ↔ ∃ l : Literal, s = .literal l ∧ l.value = v := by
  cases s <;> simp [literalValue?]

/-- Members are all literals exactly if they are made of literals. -/
theorem Shape.allLiterals?_eq_some_iff {members : List Shape} {ls : List Literal} :
    allLiterals? members = some ls ↔ members = ls.map .literal := by
  constructor
  · intro h
    induction members generalizing ls with
    | nil =>
      cases h
      rfl
    | cons s members ih =>
      cases s with
      | literal l =>
        obtain ⟨rest, hrest, rfl⟩ := Option.map_eq_some_iff.mp h
        rw [ih hrest]
        rfl
      | union _ => cases h
      | other => cases h
  · rintro rfl
    induction ls with
    | nil => rfl
    | cons l ls ih =>
      rw [List.map_cons, allLiterals?, ih]
      rfl

/-- A closed union is one of literals, at least one. -/
theorem Shape.closedMembers?_eq_some_iff {s : Shape} {ls : List Literal} :
    s.closedMembers? = some ls ↔ ls ≠ [] ∧ s = .union (ls.map .literal) := by
  cases s with
  | literal l => simp [closedMembers?]
  | other => simp [closedMembers?]
  | union members =>
    rw [Shape.union.injEq]
    cases members with
    | nil => simp [closedMembers?, eq_comm]
    | cons s members =>
      have hclosed : (Shape.union (s :: members)).closedMembers? = allLiterals? (s :: members) := rfl
      rw [hclosed, allLiterals?_eq_some_iff]
      constructor
      · intro h
        refine ⟨?_, h⟩
        rintro rfl
        cases h
      · exact And.right

/-! ## Recognised chains -/

namespace Chain

/-- The left side of the first comparison might as well have been the discriminant before. -/
theorem addAll_start {o : Shapes} {d : Expr} {cs : List Comparison}
    (h : cs.head?.map (·.1) = some d) :
    start.addAll o cs = (⟨some d, []⟩ : Chain).addAll o cs := by
  obtain ⟨⟨l, r⟩, hhead, rfl⟩ := Option.map_eq_some_iff.mp h
  obtain ⟨rest, rfl⟩ := List.head?_eq_some_iff.mp hhead
  rw [addAll_cons, addAll_cons, addEquality_start]

end Chain

theorem Expr.IsDisjunction.ne_nil {e : Expr} {cs : List Comparison} (h : e.IsDisjunction cs) :
    cs ≠ [] := by
  induction h with
  | comparison l r => exact List.cons_ne_nil _ _
  | either left right ihx ihy => exact List.append_ne_nil_of_left_ne_nil ihx _
  | paren start close inside ih => exact ih

theorem Stmt.IsChainOf.ne_nil {s : Stmt} {cs : List Comparison} (h : s.IsChainOf cs) :
    cs ≠ [] := by
  cases h with
  | chain pos init body first rest => exact List.append_ne_nil_of_left_ne_nil first.ne_nil _

/-- What is recognised in a chain of comparisons. -/
structure IsMatchOf (o : Shapes) (cs : List Comparison) (m : Match) : Prop where
  fits : AreOver o m.discriminant cs
  domain : o m.discriminant = .union (m.domain.map .literal)
  handled : m.handled.map some = cs.map fun c => (o c.2).literalValue?

/-- Comparisons that are over a discriminant have values on their right sides. -/
theorem AreOver.exists_values {o : Shapes} {d : Expr} {cs : List Comparison}
    (h : AreOver o d cs) :
    ∃ vs : List Value, vs.map some = cs.map fun c => (o c.2).literalValue? := by
  have hliterals := h.literals
  clear h
  induction cs with
  | nil => exact ⟨[], rfl⟩
  | cons c cs ih =>
    obtain ⟨⟨l, hl⟩, hrest⟩ := List.forall_mem_cons.mp hliterals
    obtain ⟨vs, hvs⟩ := ih hrest
    refine ⟨l.value :: vs, ?_⟩
    rw [List.map_cons, List.map_cons, hvs, hl]
    rfl

/-- A chain is recognised exactly if it is of the form, and its comparisons give the match. -/
theorem Match.ofChain?_eq_some_iff {o : Shapes} {s : Stmt} {m : Match}
    (hend : Analysis.chainEnd s ≠ .bareIf) :
    Match.ofChain? o s = some m ↔ ∃ cs, s.IsChainOf cs ∧ IsMatchOf o cs m := by
  constructor
  · intro h
    obtain ⟨pos, init, cond, body, other, mid, last, rfl, hcond, hlinks, hd, hdomain, hhandled⟩ :=
      Match.ofChain?_eq_some h
    obtain ⟨cs, hcs, hadd⟩ := Chain.addCondition_eq_some_iff.mp hcond
    have hotherEnd : Analysis.chainEnd other ≠ .bareIf := hend
    obtain ⟨ds, hds, hrest⟩ := (Chain.addLinks_eq_some_iff hotherEnd).mp hlinks
    have hchain : Stmt.IsChainOf (.ifChain pos init cond body other) (cs ++ ds) :=
      .chain pos init body hcs hds
    have hall : Chain.start.addAll o (cs ++ ds) = some last := by
      rw [Chain.addAll_append, hadd]
      exact hrest
    -- the left side of the first comparison is the discriminant from the start
    obtain ⟨p, hp⟩ : ∃ p, (cs ++ ds).head? = some p := ⟨_, List.head?_eq_some_head hchain.ne_nil⟩
    have hfirst : (cs ++ ds).head?.map (·.1) = some p.1 := by rw [hp, Option.map_some]
    rw [Chain.addAll_start hfirst] at hall
    obtain ⟨hfits, ws, hws, rfl⟩ := Chain.addAll_eq_some_iff.mp hall
    have hdiscriminant : p.1 = m.discriminant := Option.some.inj hd
    have hvalues : ws = m.handled := hhandled
    rw [hdiscriminant] at hfirst hfits
    rw [hvalues] at hws
    obtain ⟨hne, hunion⟩ := Shape.closedMembers?_eq_some_iff.mp hdomain
    refine ⟨cs ++ ds, hchain, ⟨hfirst, fun c hc => (hfits c hc).1, fun c hc => (hfits c hc).2,
      fun c hc => ?_, _, hne, hunion⟩, hunion, hws⟩
    have hmem : (o c.2).literalValue? ∈ m.handled.map some := hws ▸ List.mem_map_of_mem hc
    obtain ⟨v, -, hv⟩ := List.mem_map.mp hmem
    obtain ⟨l, hl, -⟩ := Shape.literalValue?_eq_some_iff.mp hv.symm
    exact ⟨l, hl⟩
  · rintro ⟨cs, hchain, hfits, hdomain, hhandled⟩
    have hadd : Chain.start.addAll o cs = some ⟨some m.discriminant, m.handled⟩ := by
      rw [Chain.addAll_start hfits.first]
      exact Chain.addAll_eq_some_iff.mpr
        ⟨fun c hc => ⟨hfits.pure c hc, hfits.same c hc⟩, m.handled, hhandled, rfl⟩
    have hclosed : (o m.discriminant).closedMembers? = some m.domain := by
      obtain ⟨ls, hne, hls⟩ := hfits.closed
      rw [hdomain, Shape.union.injEq] at hls
      refine Shape.closedMembers?_eq_some_iff.mpr ⟨?_, hdomain⟩
      intro hnil
      rw [hnil] at hls
      exact hne (List.map_eq_nil_iff.mp hls.symm)
    cases hchain with
    | @chain cond other _ _ pos init body first rest =>
      have hotherEnd : Analysis.chainEnd other ≠ .bareIf := hend
      rw [Chain.addAll_append] at hadd
      obtain ⟨mid, hcond, hother⟩ := Option.bind_eq_some_iff.mp hadd
      have hcond := Chain.addCondition_eq_some_iff.mpr ⟨_, first, hcond⟩
      have hother := (Chain.addLinks_eq_some_iff hotherEnd).mpr ⟨_, rest, hother⟩
      simp [Match.ofChain?, hcond, hother, hclosed]

/-! ## Grouping -/

/-- Conditions that differ in how disjunctions are grouped and in parentheses around conditions. -/
inductive Expr.Regroups : Expr → Expr → Prop where
  | same (e : Expr) : Regroups e e
  | symm {e f : Expr} : Regroups e f → Regroups f e
  | trans {e f g : Expr} : Regroups e f → Regroups f g → Regroups e g
  | assoc (x y z : Expr) :
    Regroups (.binary (.binary x .lor y) .lor z) (.binary x .lor (.binary y .lor z))
  | paren (start : Pos) (inner : Expr) (close : Pos) : Regroups (.paren start inner close) inner
  | either {x x' y y' : Expr} : Regroups x x' → Regroups y y' →
    Regroups (.binary x .lor y) (.binary x' .lor y')

/-- Chains whose conditions differ in grouping. -/
inductive Stmt.Regroups : Stmt → Stmt → Prop where
  | same (s : Stmt) : Regroups s s
  | link {cond cond' : Expr} {other other' : Stmt} (pos : Pos) (init body : Stmt) :
    cond.Regroups cond' → Regroups other other' →
    Regroups (.ifChain pos init cond body other) (.ifChain pos init cond' body other')

namespace Chain

/-- How a condition is grouped makes no difference. -/
theorem addCondition_regroups {o : Shapes} {e f : Expr} (h : e.Regroups f) (c : Chain) :
    c.addCondition o f = c.addCondition o e := by
  induction h generalizing c with
  | same e => rfl
  | symm h ih => exact (ih c).symm
  | trans h h' ih ih' => exact (ih' c).trans (ih c)
  | assoc x y z => simp only [addCondition, Option.bind_assoc]
  | paren start inner close => rw [addCondition]
  | either hx hy ihx ihy => simp only [addCondition, ihx, ihy]

/-- How the conditions of else branches are grouped makes no difference. -/
theorem addLinks_regroups {o : Shapes} {s t : Stmt} (h : s.Regroups t) (c : Chain) :
    c.addLinks o t = c.addLinks o s := by
  induction h generalizing c with
  | same s => rfl
  | link pos init body hcond hother ih =>
    cases init with
    | absent => simp only [addLinks, addCondition_regroups hcond, ih]
    | _ => rfl

end Chain

/-- Grouping a chain in another way gives the same match. -/
theorem Match.ofChain?_regroups {o : Shapes} {s t : Stmt} (h : s.Regroups t) :
    Match.ofChain? o t = Match.ofChain? o s := by
  cases h with
  | same => rfl
  | link pos init body hcond hother =>
    simp only [Match.ofChain?, Chain.addCondition_regroups hcond, Chain.addLinks_regroups hother]

/-- An if statement is recognised exactly if it has the form of a chain, and its comparisons are
between one discriminant and literals. Then the discriminant is what is compared first, the domain
has the members of its type in order, and what is handled are the literals of the comparisons in
order. How disjunctions are grouped makes no difference. -/
theorem recognised_iff_grammar (o : Shapes) (s : Stmt) (hend : Analysis.chainEnd s ≠ .bareIf) :
    ((∃ m, Match.ofChain? o s = some m) ↔ ∃ cs d, s.IsChainOf cs ∧ AreOver o d cs) ∧
    (∀ m cs, Match.ofChain? o s = some m → s.IsChainOf cs → IsMatchOf o cs m) ∧
    ∀ t, s.Regroups t → Match.ofChain? o t = Match.ofChain? o s := by
  refine ⟨?_, fun m cs hm hcs => ?_, fun t => Match.ofChain?_regroups⟩
  · constructor
    · rintro ⟨m, hm⟩
      obtain ⟨cs, hcs, hmatch⟩ := (Match.ofChain?_eq_some_iff hend).mp hm
      exact ⟨cs, m.discriminant, hcs, hmatch.fits⟩
    · rintro ⟨cs, d, hcs, hfits⟩
      obtain ⟨ls, hne, hunion⟩ := hfits.closed
      obtain ⟨vs, hvs⟩ := hfits.exists_values
      exact ⟨⟨d, ls, vs⟩, (Match.ofChain?_eq_some_iff hend).mpr ⟨cs, hcs, hfits, hunion, hvs⟩⟩
  · obtain ⟨ds, hds, hmatch⟩ := (Match.ofChain?_eq_some_iff hend).mp hm
    rw [hcs.unique hds]
    exact hmatch

/-- The comparison of `x` with a constant, taken apart. -/
def sidesOf (name : UInt8) : Comparison := (.ident ⟨0, [0x78]⟩, .ident ⟨0, [name]⟩)

/-- The chain `if (x == a || x == b) {} else if x == c {}`. -/
def threeRegrouped : Stmt :=
  .ifChain 0 .absent (.paren 0 (.binary (comparedWith 0x61) .lor (comparedWith 0x62)) 0)
    (.block 0 [] 0) (.ifChain 0 .absent (comparedWith 0x63) (.block 0 [] 0) .absent)

theorem recognised_threeComparisons :
    Analysis.chainEnd threeComparisons ≠ .bareIf ∧
    threeComparisons.IsChainOf [sidesOf 0x61, sidesOf 0x62, sidesOf 0x63] ∧
    Match.ofChain? shapesOfFive threeComparisons = some threeOfFive ∧
    IsMatchOf shapesOfFive [sidesOf 0x61, sidesOf 0x62, sidesOf 0x63] threeOfFive ∧
    threeComparisons.Regroups threeRegrouped ∧
    Match.ofChain? shapesOfFive threeRegrouped = some threeOfFive := by
  have hend : Analysis.chainEnd threeComparisons ≠ .bareIf := nofun
  have hchain : threeComparisons.IsChainOf [sidesOf 0x61, sidesOf 0x62, sidesOf 0x63] :=
    .chain 0 .absent _ (.either (.comparison _ _) (.paren 0 0 (.comparison _ _)))
      (.link 0 _ (.comparison _ _) .nothing)
  have hregroups : threeComparisons.Regroups threeRegrouped :=
    .link 0 .absent _ (.trans (.either (.same _) (.paren 0 _ 0)) (.symm (.paren 0 _ 0))) (.same _)
  have hlaw := recognised_iff_grammar shapesOfFive threeComparisons hend
  exact ⟨hend, hchain, rfl, hlaw.2.1 threeOfFive _ rfl hchain, hregroups,
    hlaw.2.2 threeRegrouped hregroups⟩

end CaseCover
