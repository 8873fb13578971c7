import CaseCover.Proofs.Coverage.ChainMeaning

/-!
# Chains as switches

A chain of if statements can be written as a switch over its discriminant, with one clause for each
link that lists what the condition of the link compares the discriminant with. The two recognisers
read such a pair alike: the chain collects the literal of one equality after the other
(`Match.handled_of_chain`), the switch those of one clause after the other
(`handledByClauses_of_cases`), and both arrive at the same list.
-/

namespace CaseCover

/-- What a clause other than the default clause lists. -/
def Stmt.caseExprs? : Stmt → Option (List Expr)
  | .caseClause _ false exprs _ _ => some exprs
  | _ => none

/-- `sw` is the chain `s` written as a switch over `d`: it has one clause for each link, which lists
the comparands of the link. -/
def IsSwitchForm (s : Stmt) (d : Expr) (sw : Stmt) : Prop :=
  ∃ pos init start clauses close, sw = .switchOn pos init d (.block start clauses close) ∧
    clauses.map Stmt.caseExprs? = s.comparandsByLink.map some

/-! ## What the links compare with -/

namespace Chain

variable {o : Shapes} {c c' : Chain}

theorem comparands_ne_nil {e : Expr} (h : c.addCondition o e = some c') : e.comparands ≠ [] := by
  fun_induction addCondition o c e generalizing c' with
  | case1 c start inner close ih => exact ih h
  | case2 c x y ihx ihy =>
    obtain ⟨d, hx, -⟩ := Option.bind_eq_some_iff.mp h
    exact List.append_ne_nil_of_left_ne_nil (ihx hx) _
  | case3 c x y => exact List.cons_ne_nil y []
  | case4 => cases h

theorem comparandsByLink_ne_nil {s : Stmt} (h : c.addLinks o s = some c') :
    ∀ es ∈ s.comparandsByLink, es ≠ [] := by
  fun_induction addLinks o c s generalizing c' with
  | case1 => exact List.forall_mem_nil _
  | case2 => exact List.forall_mem_nil _
  | case3 c pos cond body other ih =>
    obtain ⟨d, hcond, hother⟩ := Option.bind_eq_some_iff.mp h
    exact List.forall_mem_cons.mpr ⟨comparands_ne_nil hcond, ih d hother⟩
  | case4 => cases h

end Chain

/-- Every link of a recognised chain compares with something, so no clause made of it is the default
clause. -/
theorem Match.comparands_of_chain {o : Shapes} {s : Stmt} {m : Match}
    (h : Match.ofChain? o s = some m) : ∀ es ∈ s.comparandsByLink, es ≠ [] := by
  obtain ⟨pos, init, cond, body, other, first, last, rfl, hcond, hlinks, -⟩ :=
    Match.ofChain?_eq_some h
  exact List.forall_mem_cons.mpr
    ⟨Chain.comparands_ne_nil hcond, Chain.comparandsByLink_ne_nil hlinks⟩

/-! ## What a switch collects -/

theorem eq_caseClause_of_caseExprs? {s : Stmt} {es : List Expr} (h : s.caseExprs? = some es) :
    ∃ pos colon body, s = .caseClause pos false es colon body := by
  unfold Stmt.caseExprs? at h
  split at h
  · next pos exprs colon body =>
    cases h
    exact ⟨pos, colon, body, rfl⟩
  · cases h

variable {clauses : List Stmt} {lists : List (List Expr)}

theorem handledByClauses_of_cases (o : Shapes)
    (h : clauses.map Stmt.caseExprs? = lists.map some) :
    handledByClauses o clauses = some (literalValues o lists.flatten) := by
  induction clauses generalizing lists with
  | nil =>
    cases lists with
    | nil => rfl
    | cons es lists => cases h
  | cons s clauses ih =>
    cases lists with
    | nil => cases h
    | cons es lists =>
      obtain ⟨hs, hrest⟩ := List.cons.inj h
      obtain ⟨pos, colon, body, rfl⟩ := eq_caseClause_of_caseExprs? hs
      rw [handledByClauses, ih hrest, List.flatten_cons, literalValues_append]
      rfl

theorem anyDefault_of_cases (h : clauses.map Stmt.caseExprs? = lists.map some) :
    anyDefault clauses = false := by
  rw [anyDefault, List.any_eq_false]
  intro s hs
  have hmem : s.caseExprs? ∈ lists.map some := h ▸ List.mem_map_of_mem hs
  obtain ⟨es, -, hes⟩ := List.mem_map.mp hmem
  obtain ⟨pos, colon, body, rfl⟩ := eq_caseClause_of_caseExprs? hes.symm
  simp

/-- A switch over something, all of whose clauses list cases, is recognised if what it is over has a
closed union as type. -/
theorem Match.ofSwitch?_of_cases {o : Shapes} {tag : Expr} {domain : List Literal}
    (htag : tag.isAbsent = false) (hdomain : (o tag).closedMembers? = some domain)
    (h : clauses.map Stmt.caseExprs? = lists.map some) (pos : Pos) (init : Stmt)
    (start close : Pos) :
    Match.ofSwitch? o (.switchOn pos init tag (.block start clauses close)) =
      some ⟨tag, domain, literalValues o lists.flatten⟩ := by
  rw [Match.ofSwitch?, htag, anyDefault_of_cases h, hdomain, handledByClauses_of_cases o h]
  rfl

/-! ## Both -/

theorem Expr.isAbsent_of_isPure {e : Expr} (h : e.isPure = true) : e.isAbsent = false := by
  cases e with
  | absent => cases h
  | _ => rfl

/-- The finding of a construct depends on the construct only through what is recognised in it. -/
theorem Finding.ofMatch?_node (s s' : Stmt) (m : Match) :
    Finding.ofMatch? s' m = (Finding.ofMatch? s m).map fun f => { f with node := s' } := by
  unfold Finding.ofMatch?
  by_cases h : m.missing = [] <;> simp [h]

theorem Finding.of?_ofSwitch {o : Shapes} {s : Stmt} {m : Match}
    (h : Match.ofSwitch? o s = some m) : Finding.of? o s = Finding.ofMatch? s m := by
  have hrecognised : recognise o s = some m := by
    unfold Match.ofSwitch? at h
    split at h
    · rw [recognise, Match.ofSwitch?, h]
    · cases h
  rw [Finding.of?, hrecognised, Option.bind_some]

/-- A recognised chain and the switch that is made of it are recognised alike. So one of them leaves
something out exactly if the other one does, and what is said about them is the same. -/
theorem switchForm_agrees {o : Shapes} {s sw : Stmt} {m : Match}
    (hm : Match.ofChain? o s = some m) (hsw : IsSwitchForm s m.discriminant sw) :
    (∀ es ∈ s.comparandsByLink, es ≠ []) ∧
    Match.ofSwitch? o sw = some m ∧
    ((Finding.of? o sw).isSome = true ↔ (Finding.of? o s).isSome = true) ∧
    ∀ f g, Finding.of? o s = some f → Finding.of? o sw = some g →
      g.missing = f.missing ∧ g.message = f.message ∧ g.unmatched = f.unmatched := by
  obtain ⟨pos, init, start, clauses, close, rfl, hclauses⟩ := hsw
  obtain ⟨-, -, -, -, -, -, -, -, -, -, -, hdomain, -⟩ := Match.ofChain?_eq_some hm
  have htag := Expr.isAbsent_of_isPure (Match.discriminant_isPure hm)
  have hswitch := Match.ofSwitch?_of_cases htag hdomain hclauses pos init start close
  rw [← Match.handled_of_chain hm] at hswitch
  -- the same match gives the same finding, but for the statement it is about
  have hfinding := Finding.ofMatch?_node s
    (.switchOn pos init m.discriminant (.block start clauses close)) m
  rw [← Finding.of?_ofChain hm, ← Finding.of?_ofSwitch hswitch] at hfinding
  refine ⟨Match.comparands_of_chain hm, hswitch, ?_, ?_⟩
  · rw [hfinding, Option.isSome_map]
  · intro f g hf hg
    rw [hfinding, hf] at hg
    cases hg
    exact ⟨rfl, rfl, rfl⟩

/-- The switch `switch x { case a, b: case c: }`. -/
def threeCases : Stmt :=
  .switchOn 0 .absent (.ident ⟨0, [0x78]⟩) (.block 0
    [.caseClause 0 false [.ident ⟨0, [0x61]⟩, .ident ⟨0, [0x62]⟩] 0 [],
      .caseClause 0 false [.ident ⟨0, [0x63]⟩] 0 []] 0)

theorem threeCases_agrees :
    Match.ofChain? shapesOfFive threeComparisons = some threeOfFive ∧
    IsSwitchForm threeComparisons threeOfFive.discriminant threeCases ∧
    Match.ofSwitch? shapesOfFive threeCases = some threeOfFive ∧
    (Finding.of? shapesOfFive threeComparisons).isSome = true ∧
    (Finding.of? shapesOfFive threeCases).isSome = true := by
  have hform : IsSwitchForm threeComparisons threeOfFive.discriminant threeCases :=
    ⟨0, .absent, 0, _, 0, rfl, rfl⟩
  have hfinds : (Finding.of? shapesOfFive threeComparisons).isSome = true := by decide +kernel
  have hagrees := switchForm_agrees (o := shapesOfFive) (m := threeOfFive) rfl hform
  exact ⟨rfl, hform, hagrees.2.1, hfinds, hagrees.2.2.1.mpr hfinds⟩

end CaseCover
