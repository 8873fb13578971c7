import CaseCover.Proofs.Coverage.ChainAsSwitch
import CaseCover.Proofs.Coverage.Difference

/-!
# Rearranged switches

The clauses of a switch may be put in another order, split and merged, and what they list may be put
in another order, repeated, and extended by what has no bearing on the domain. Each such step keeps
which values of the domain the clauses handle (`handles_iff_of_rearranges`), and that is all that is
said about the switch: its order comes from the domain.
-/

namespace CaseCover

/-- `s` is a switch over `tag` without a default clause, and its clauses list these cases. -/
def IsSwitchOver (s : Stmt) (tag : Expr) (cases : List (List Expr)) : Prop :=
  ∃ pos init start clauses close, s = .switchOn pos init tag (.block start clauses close) ∧
    clauses.map Stmt.caseExprs? = cases.map some

/-- The expression is no literal, or its value equals none of the domain. -/
def IsIdle (o : Shapes) (domain : List Literal) (e : Expr) : Prop :=
  ∀ v, (o e).literalValue? = some v → ∀ l ∈ domain, v.same l.value = false

/-- Two ways to list the cases of a switch with the given domain, by clauses. -/
inductive Rearranges (o : Shapes) (domain : List Literal) :
    List (List Expr) → List (List Expr) → Prop where
  | same (cases : List (List Expr)) : Rearranges o domain cases cases
  | symm {cases cases' : List (List Expr)} :
    Rearranges o domain cases cases' → Rearranges o domain cases' cases
  | trans {cases cases' cases'' : List (List Expr)} :
    Rearranges o domain cases cases' → Rearranges o domain cases' cases'' →
    Rearranges o domain cases cases''
  /-- The clauses change places. -/
  | clauses {cases cases' : List (List Expr)} :
    cases.Perm cases' → Rearranges o domain cases cases'
  /-- What a clause lists changes places. -/
  | within {es fs : List Expr} (rest : List (List Expr)) :
    es.Perm fs → Rearranges o domain (es :: rest) (fs :: rest)
  /-- A clause is split in two. -/
  | split (es fs : List Expr) (rest : List (List Expr)) :
    Rearranges o domain ((es ++ fs) :: rest) (es :: fs :: rest)
  /-- What a clause lists is listed again, maybe as another expression with the same literal. -/
  | again {e e' : Expr} {es : List Expr} (rest : List (List Expr)) :
    e ∈ es → (o e').literalValue? = (o e).literalValue? →
    Rearranges o domain (es :: rest) ((e' :: es) :: rest)
  /-- A clause lists something idle in addition. -/
  | idle {e : Expr} (es : List Expr) (rest : List (List Expr)) :
    IsIdle o domain e → Rearranges o domain (es :: rest) ((e :: es) :: rest)
  /-- There is one clause more, and it lists something idle. -/
  | idleClause {e : Expr} (rest : List (List Expr)) :
    IsIdle o domain e → Rearranges o domain rest ([e] :: rest)

/-! ## What the clauses handle -/

variable {o : Shapes} {domain : List Literal} {cases cases' : List (List Expr)}

theorem occursIn_literalValues_cons (e : Expr) (es : List Expr) (v : Value) :
    Value.occursIn (literalValues o (e :: es)) v =
      ((o e).literalValue?.any (·.same v) || Value.occursIn (literalValues o es) v) := by
  cases h : (o e).literalValue? <;> simp [literalValues, h]

theorem occursIn_literalValues_of_perm {es fs : List Expr} (h : es.Perm fs) (v : Value) :
    Value.occursIn (literalValues o fs) v = Value.occursIn (literalValues o es) v :=
  occursIn_eq_of_mem_iff fun _ _ => (h.filterMap _).mem_iff.symm

theorem occursIn_literalValues_of_mem {e : Expr} {es : List Expr} {v : Value} (he : e ∈ es)
    (h : (o e).literalValue?.any (·.same v) = true) :
    Value.occursIn (literalValues o es) v = true := by
  obtain ⟨w, hw, hsame⟩ := (Option.any_eq_true _ _).mp h
  exact Value.occursIn_iff.mpr ⟨w, List.mem_filterMap.mpr ⟨e, he, hw⟩, hsame⟩

theorem any_same_of_isIdle {e : Expr} (h : IsIdle o domain e) {l : Literal} (hl : l ∈ domain) :
    (o e).literalValue?.any (·.same l.value) = false := by
  cases hv : (o e).literalValue? with
  | none => rfl
  | some v => exact h v hv l hl

/-- Rearranged cases handle the same values of the domain. -/
theorem occursIn_of_rearranges (h : Rearranges o domain cases cases') {l : Literal}
    (hl : l ∈ domain) : Value.occursIn (literalValues o cases'.flatten) l.value =
      Value.occursIn (literalValues o cases.flatten) l.value := by
  induction h with
  | same => rfl
  | symm _ ih => exact ih.symm
  | trans _ _ ih ih' => exact ih'.trans ih
  | clauses hperm => exact occursIn_literalValues_of_perm hperm.flatten _
  | within rest hperm =>
    exact occursIn_literalValues_of_perm (hperm.append_right rest.flatten) _
  | split es fs rest =>
    rw [List.flatten_cons, List.flatten_cons, List.flatten_cons, List.append_assoc]
  | again rest he hliteral =>
    -- what is listed again was handled before
    rw [List.flatten_cons, List.flatten_cons, List.cons_append, occursIn_literalValues_cons,
      hliteral, Bool.or_eq_right_iff_imp]
    exact occursIn_literalValues_of_mem (List.mem_append_left _ he)
  | idle es rest hidle =>
    rw [List.flatten_cons, List.flatten_cons, List.cons_append, occursIn_literalValues_cons,
      any_same_of_isIdle hidle hl, Bool.false_or]
  | idleClause rest hidle =>
    rw [List.flatten_cons, List.singleton_append, occursIn_literalValues_cons,
      any_same_of_isIdle hidle hl, Bool.false_or]

/-! ## Switches without a default clause -/

/-- Where every statement is a clause and none is the default clause, all of them list cases. -/
theorem exists_cases_of_handledByClauses {clauses : List Stmt} {handled : List Value}
    (hdefault : anyDefault clauses = false) (h : handledByClauses o clauses = some handled) :
    ∃ cases : List (List Expr), clauses.map Stmt.caseExprs? = cases.map some := by
  fun_induction handledByClauses o clauses generalizing handled with
  | case1 => exact ⟨[], rfl⟩
  | case2 pos isDefault exprs colon body rest ih =>
    obtain ⟨values, hvalues, -⟩ := Option.map_eq_some_iff.mp h
    rw [anyDefault, List.any_cons, Bool.or_eq_false_iff] at hdefault
    obtain ⟨cases, hcases⟩ := ih hdefault.2 hvalues
    obtain rfl : isDefault = false := hdefault.1
    exact ⟨exprs :: cases, by rw [List.map_cons, List.map_cons, hcases]; rfl⟩
  | case3 => cases h

/-- A recognised switch has cases, and is over something whose type is a closed union. -/
theorem Match.ofSwitch?_eq_some {s : Stmt} {m : Match} (h : Match.ofSwitch? o s = some m) :
    m.discriminant.isAbsent = false ∧ (o m.discriminant).closedMembers? = some m.domain ∧
      ∃ cases, IsSwitchOver s m.discriminant cases := by
  unfold Match.ofSwitch? at h
  split at h
  · next pos init tag start clauses close =>
    split at h
    · cases h
    · next hguard =>
      rw [Bool.or_eq_true, not_or, Bool.not_eq_true, Bool.not_eq_true] at hguard
      obtain ⟨domain, hdomain, h⟩ := Option.bind_eq_some_iff.mp h
      obtain ⟨handled, hhandled, h⟩ := Option.bind_eq_some_iff.mp h
      cases h
      obtain ⟨cases, hcases⟩ := exists_cases_of_handledByClauses hguard.2 hhandled
      exact ⟨hguard.1, hdomain, cases, pos, init, start, clauses, close, rfl, hcases⟩
  · cases h

theorem IsSwitchOver.ofSwitch? {s : Stmt} {tag : Expr} (h : IsSwitchOver s tag cases)
    (htag : tag.isAbsent = false) (hdomain : (o tag).closedMembers? = some domain) :
    Match.ofSwitch? o s = some ⟨tag, domain, literalValues o cases.flatten⟩ := by
  obtain ⟨pos, init, start, clauses, close, rfl, hcases⟩ := h
  exact Match.ofSwitch?_of_cases htag hdomain hcases pos init start close

/-! ## Both switches -/

/-- A finding depends on the domain and on what is missing. -/
theorem Finding.ofMatch?_of_missing (s s' : Stmt) {m m' : Match} (h : m'.missing = m.missing) :
    Finding.ofMatch? s' m' =
      (Finding.ofMatch? s m).map fun f => { f with node := s', found := m' } := by
  unfold Finding.ofMatch?
  rw [h]
  by_cases hnil : m.missing = [] <;> simp [hnil]

/-- Every recognised switch lists cases by clauses. A switch over the same that lists them
rearranged is recognised as well; one leaves something out exactly if the other does, and what is
said about them is the same. -/
theorem rearranged_agrees {o : Shapes} {s : Stmt} {m : Match}
    (hm : Match.ofSwitch? o s = some m) :
    (∃ cases, IsSwitchOver s m.discriminant cases) ∧
    ∀ s' cases cases', IsSwitchOver s m.discriminant cases →
      IsSwitchOver s' m.discriminant cases' → Rearranges o m.domain cases cases' →
      ∃ m', Match.ofSwitch? o s' = some m' ∧ m'.discriminant = m.discriminant ∧
        m'.domain = m.domain ∧ m'.missing = m.missing ∧
        ((Finding.of? o s').isSome = true ↔ (Finding.of? o s).isSome = true) ∧
        ∀ f g, Finding.of? o s = some f → Finding.of? o s' = some g →
          g.missing = f.missing ∧ g.message = f.message ∧ g.unmatched = f.unmatched := by
  obtain ⟨htag, hdomain, hcases⟩ := Match.ofSwitch?_eq_some hm
  refine ⟨hcases, fun s' cases cases' hs hs' hrearranges => ?_⟩
  have hm' := hs'.ofSwitch? htag hdomain
  -- the match of `s` is the one of its cases
  have hcases' := Option.some.inj ((hs.ofSwitch? htag hdomain).symm.trans hm)
  have hhandled : literalValues o cases.flatten = m.handled := congrArg Match.handled hcases'
  generalize hnew : (⟨m.discriminant, m.domain, literalValues o cases'.flatten⟩ : Match) = m' at hm'
  have hmissing : m'.missing = m.missing := by
    rw [← hnew, m.missing_eq, ← hhandled]
    refine missing_congr fun v hv => ?_
    obtain ⟨l, hl, rfl⟩ := List.mem_map.mp hv
    exact occursIn_of_rearranges hrearranges hl
  have hdomain' : m'.domain = m.domain := by rw [← hnew]
  have hfinding := Finding.ofMatch?_of_missing s s' hmissing
  rw [← Finding.of?_ofSwitch hm, ← Finding.of?_ofSwitch hm'] at hfinding
  refine ⟨m', hm', by rw [← hnew], hdomain', hmissing, ?_, ?_⟩
  · rw [hfinding, Option.isSome_map]
  · intro f g hf hg
    rw [hfinding, hf] at hg
    cases hg
    have hfound : f.found = m := Finding.found_of_ofMatch? (Finding.of?_ofSwitch hm ▸ hf)
    refine ⟨rfl, rfl, ?_⟩
    rw [Finding.unmatched, Finding.unmatched, hfound, hdomain']

/-- A name of one letter. -/
def letter (name : UInt8) : Expr := .ident ⟨0, [name]⟩

/-- `x` is one of 0 to 4; `a` is 0, `b` is 2, held as a fraction, `c` is 3 and `d` is 7. -/
def shapesOfLetters : Shapes :=
  shapesOfNames ([0, 1, 2, 3, 4].map fun n => .of (.int n))
    [(0x61, .of (.int 0)), (0x62, .of (.frac 2)), (0x63, .of (.int 3)), (0x64, .of (.int 7))]

/-- The switch `switch x { case c, z, b: case a, d, a: }`. -/
def sixCases : Stmt :=
  .switchOn 0 .absent (letter 0x78) (.block 0
    [.caseClause 0 false [letter 0x63, letter 0x7a, letter 0x62] 0 [],
      .caseClause 0 false [letter 0x61, letter 0x64, letter 0x61] 0 []] 0)

/-- The cases of `threeCases` are split, `a` is repeated, and neither `d` nor `z` counts. -/
theorem rearranges_sixCases : Rearranges shapesOfLetters threeOfFive.domain
    [[letter 0x61, letter 0x62], [letter 0x63]]
    [[letter 0x63, letter 0x7a, letter 0x62], [letter 0x61, letter 0x64, letter 0x61]] := by
  have hz : IsIdle shapesOfLetters threeOfFive.domain (letter 0x7a) := fun v hv => nomatch hv
  have hd : IsIdle shapesOfLetters threeOfFive.domain (letter 0x64) := by
    rintro v ⟨⟩
    decide +kernel
  refine .trans (.split [letter 0x61] [letter 0x62] [[letter 0x63]]) ?_
  refine .trans (.again _ (List.mem_singleton_self _) rfl) ?_
  refine .trans (.idle _ _ hd) (.trans (.within _ (.swap _ _ _)) ?_)
  refine .trans (.clauses (.swap _ _ _)) (.trans (.idle _ _ hz) ?_)
  refine .trans (.clauses ((List.Perm.swap _ _ _).cons _)) (.trans (.clauses (.swap _ _ _)) ?_)
  exact .symm (.split [letter 0x63] _ _)

theorem rearranged_threeCases :
    Match.ofSwitch? shapesOfLetters threeCases = some threeOfFive ∧
    IsSwitchOver threeCases (letter 0x78) [[letter 0x61, letter 0x62], [letter 0x63]] ∧
    IsSwitchOver sixCases (letter 0x78)
      [[letter 0x63, letter 0x7a, letter 0x62], [letter 0x61, letter 0x64, letter 0x61]] ∧
    ∃ m, Match.ofSwitch? shapesOfLetters sixCases = some m ∧ m.domain = threeOfFive.domain ∧
      m.missing = [.of (.int 1), .of (.int 4)] ∧
      (Finding.of? shapesOfLetters sixCases).isSome = true := by
  have hthree : IsSwitchOver threeCases (letter 0x78)
      [[letter 0x61, letter 0x62], [letter 0x63]] := ⟨0, .absent, 0, _, 0, rfl, rfl⟩
  have hsix : IsSwitchOver sixCases (letter 0x78)
      [[letter 0x63, letter 0x7a, letter 0x62], [letter 0x61, letter 0x64, letter 0x61]] :=
    ⟨0, .absent, 0, _, 0, rfl, rfl⟩
  have hm : Match.ofSwitch? shapesOfLetters threeCases = some threeOfFive := rfl
  obtain ⟨m, hsome, -, hdomain, hmissing, hfinds, -⟩ :=
    (rearranged_agrees hm).2 sixCases _ _ hthree hsix rearranges_sixCases
  exact ⟨hm, hthree, hsix, m, hsome, hdomain, hmissing.trans (by decide +kernel),
    hfinds.mpr (by decide +kernel)⟩

end CaseCover
