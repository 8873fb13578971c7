import CaseCover.Coverage.Finding
import CaseCover.Proofs.Coverage.Missing

/-!
# The meaning of a chain

A chain of if statements is evaluated on a value of its discriminant: an equality is true when the
value equals the literal on its right side, `||` is a disjunction, and the chain takes a branch when
the condition of one of its links is true.

The recogniser goes through the equalities from left to right. Each step of it adds the literals of
what it has just read, and it never takes a discriminant that cannot be evaluated again and again
(`Chain.Grows`, `addCondition_grows`, `addLinks_grows`). A condition is true exactly where one of
these literals equals the value, so the values that a recognised chain handles are those on which it
takes a branch.
-/

namespace CaseCover

/-- A condition is true when the discriminant of its equalities has the value `v`. -/
def Expr.holdsAt (o : Shapes) (v : Value) : Expr → Bool
  | .paren _ inner _ => inner.holdsAt o v
  | .binary x .lor y => x.holdsAt o v || y.holdsAt o v
  | .binary _ .eql r => (o r).literalValue?.any v.same
  | _ => false

/-- A chain takes one of its branches when its discriminant has the value `v`. -/
def Stmt.takesBranch (o : Shapes) (v : Value) : Stmt → Bool
  | .ifChain _ _ cond _ other => cond.holdsAt o v || other.takesBranch o v
  | _ => false

/-- The right sides of the equalities in a condition, from left to right. -/
def Expr.comparands : Expr → List Expr
  | .paren _ inner _ => inner.comparands
  | .binary x .lor y => x.comparands ++ y.comparands
  | .binary _ .eql r => [r]
  | _ => []

/-- The comparands of each link of a chain. -/
def Stmt.comparandsByLink : Stmt → List (List Expr)
  | .ifChain _ _ cond _ other => cond.comparands :: other.comparandsByLink
  | _ => []

theorem literalValues_append (o : Shapes) (es fs : List Expr) :
    literalValues o (es ++ fs) = literalValues o es ++ literalValues o fs :=
  List.filterMap_append

/-! ## What each step adds -/

namespace Chain

variable {o : Shapes} {c c' c'' : Chain} {es fs : List Expr}

/-- From `c` to `c'` the literals among some comparands are handled in addition. A discriminant that
was not there before can be evaluated again and again. -/
structure Grows (o : Shapes) (c c' : Chain) (es : List Expr) : Prop where
  handled : c'.handled = c.handled ++ literalValues o es
  discriminant : ∀ d, c'.discriminant = some d → c.discriminant = some d ∨ d.isPure = true

theorem Grows.refl (o : Shapes) (c : Chain) : Grows o c c [] :=
  ⟨(List.append_nil _).symm, fun _ => .inl⟩

theorem Grows.trans (h : Grows o c c' es) (h' : Grows o c' c'' fs) : Grows o c c'' (es ++ fs) where
  handled := by rw [h'.handled, h.handled, literalValues_append, List.append_assoc]
  discriminant d hd := (h'.discriminant d hd).elim (h.discriminant d) .inr

/-- An equality that fits adds the literal on its right side; its left side is or becomes the
discriminant. -/
theorem addEquality_grows {lhs rhs : Expr} (h : c.addEquality o lhs rhs = some c') :
    Grows o c c' [rhs] := by
  have hadd {d : Expr} (hd : c.discriminant = some d ∨ d.isPure = true)
      (h : ((o rhs).literalValue?.map fun v => (⟨some d, c.handled ++ [v]⟩ : Chain)) = some c') :
      Grows o c c' [rhs] := by
    obtain ⟨v, hv, rfl⟩ := Option.map_eq_some_iff.mp h
    exact ⟨by simp [literalValues, hv], fun e he => Option.some.inj he ▸ hd⟩
  unfold addEquality at h
  split at h
  · next hpure =>
    split at h
    · exact hadd (.inr (Bool.and_eq_true_iff.mp hpure).1) h
    · next d hd =>
      split at h
      · exact hadd (.inl hd) h
      · cases h
  · cases h

/-- A condition adds its right sides. -/
theorem addCondition_grows {e : Expr} (h : c.addCondition o e = some c') :
    Grows o c c' e.comparands := by
  fun_induction addCondition o c e generalizing c' with
  | case1 c start inner close ih => exact ih h
  | case2 c x y ihx ihy =>
    obtain ⟨d, hx, hy⟩ := Option.bind_eq_some_iff.mp h
    exact (ihx hx).trans (ihy d hy)
  | case3 c x y => exact addEquality_grows h
  | case4 => cases h

/-- Else branches add the right sides of their conditions. -/
theorem addLinks_grows {s : Stmt} (h : c.addLinks o s = some c') :
    Grows o c c' s.comparandsByLink.flatten := by
  fun_induction addLinks o c s generalizing c' with
  | case1 c =>
    cases h
    exact .refl o c
  | case2 c =>
    cases h
    exact .refl o c
  | case3 c pos cond body other ih =>
    obtain ⟨d, hcond, hother⟩ := Option.bind_eq_some_iff.mp h
    exact (addCondition_grows hcond).trans (ih d hother)
  | case4 => cases h

end Chain

/-! ## Where conditions are true -/

/-- A condition is true where one of the literals that it compares with equals the value. -/
theorem Expr.holdsAt_eq_any (o : Shapes) (v : Value) (e : Expr) :
    e.holdsAt o v = (literalValues o e.comparands).any v.same := by
  fun_induction Expr.comparands e with
  | case1 start inner close ih => exact ih
  | case2 x y ihx ihy => rw [holdsAt, ihx, ihy, literalValues_append, List.any_append]
  | case3 l r =>
    rw [holdsAt, literalValues]
    cases hr : (o r).literalValue? <;> simp [hr]
  | case4 e hparen hlor heql =>
    unfold holdsAt
    split
    · next start inner close => exact absurd rfl (hparen start inner close)
    · next x y => exact absurd rfl (hlor x y)
    · next l r => exact absurd rfl (heql l r)
    · rfl

/-- A chain takes a branch for the values that one of its right sides has. -/
theorem Stmt.takesBranch_eq_any (o : Shapes) (v : Value) (s : Stmt) :
    s.takesBranch o v = (literalValues o s.comparandsByLink.flatten).any v.same := by
  fun_induction Stmt.comparandsByLink s with
  | case1 pos init cond body other ih =>
    rw [takesBranch, Expr.holdsAt_eq_any, ih, List.flatten_cons, literalValues_append,
      List.any_append]
  | case2 s hlink =>
    unfold takesBranch
    split
    · next pos init cond body other => exact absurd rfl (hlink pos init cond body other)
    · rfl

/-! ## Recognised chains -/

/-- A recognised chain, read apart. -/
theorem Match.ofChain?_eq_some {o : Shapes} {s : Stmt} {m : Match}
    (h : Match.ofChain? o s = some m) :
    ∃ pos init cond body other first last, s = .ifChain pos init cond body other ∧
      Chain.start.addCondition o cond = some first ∧ first.addLinks o other = some last ∧
      last.discriminant = some m.discriminant ∧
      (o m.discriminant).closedMembers? = some m.domain ∧ last.handled = m.handled := by
  unfold Match.ofChain? at h
  split at h
  · next pos init cond body other =>
    obtain ⟨first, hcond, h⟩ := Option.bind_eq_some_iff.mp h
    obtain ⟨last, hlinks, h⟩ := Option.bind_eq_some_iff.mp h
    obtain ⟨d, hd, h⟩ := Option.bind_eq_some_iff.mp h
    obtain ⟨domain, hdomain, h⟩ := Option.bind_eq_some_iff.mp h
    cases h
    exact ⟨pos, init, cond, body, other, first, last, rfl, hcond, hlinks, hd, hdomain, rfl⟩
  · cases h

/-- What a recognised chain comes to from the start, over all its links. -/
theorem Match.grows_of_chain {o : Shapes} {s : Stmt} {m : Match}
    (h : Match.ofChain? o s = some m) :
    Chain.Grows o Chain.start ⟨some m.discriminant, m.handled⟩ s.comparandsByLink.flatten := by
  obtain ⟨pos, init, cond, body, other, first, last, rfl, hcond, hlinks, hd, -, hhandled⟩ :=
    Match.ofChain?_eq_some h
  rw [← hd, ← hhandled]
  exact (Chain.addCondition_grows hcond).trans (Chain.addLinks_grows hlinks)

/-- A recognised chain handles the literals among its comparands, link by link. -/
theorem Match.handled_of_chain {o : Shapes} {s : Stmt} {m : Match}
    (h : Match.ofChain? o s = some m) :
    m.handled = literalValues o s.comparandsByLink.flatten :=
  (Match.grows_of_chain h).handled

theorem Match.discriminant_isPure {o : Shapes} {s : Stmt} {m : Match}
    (h : Match.ofChain? o s = some m) : m.discriminant.isPure = true :=
  ((Match.grows_of_chain h).discriminant m.discriminant rfl).resolve_left nofun

/-- A recognised chain handles the values on which it takes a branch, and no others. -/
theorem Match.occursIn_handled {o : Shapes} {s : Stmt} {m : Match}
    (h : Match.ofChain? o s = some m) (v : Value) :
    Value.occursIn m.handled v = s.takesBranch o v := by
  rw [Value.occursIn_eq_any, Match.handled_of_chain h, Stmt.takesBranch_eq_any]

/-- A recognised chain is judged by its match. -/
theorem Finding.of?_ofChain {o : Shapes} {s : Stmt} {m : Match}
    (h : Match.ofChain? o s = some m) : Finding.of? o s = Finding.ofMatch? s m := by
  obtain ⟨pos, init, cond, body, other, -, -, rfl, -⟩ := Match.ofChain?_eq_some h
  rw [Finding.of?, recognise, h]
  rfl

/-- There is a finding exactly if a value is missing, and it says which are. -/
theorem Finding.ofMatch?_eq_some_iff {s : Stmt} {m : Match} {f : Finding} :
    Finding.ofMatch? s m = some f ↔ m.missing ≠ [] ∧ f = ⟨s, m, m.missing⟩ := by
  unfold Finding.ofMatch?
  by_cases h : m.missing = []
  · simp [h]
  · simp only [List.isEmpty_iff, h, ↓reduceIte, Option.some.injEq, ne_eq, not_false_eq_true,
      true_and]
    exact eq_comm

/-- A recognised construct gives a finding exactly when something is missing. -/
theorem Finding.ofMatch?_isSome {s : Stmt} {m : Match} :
    (Finding.ofMatch? s m).isSome = true ↔ m.missing ≠ [] := by
  simp only [Option.isSome_iff_exists, Finding.ofMatch?_eq_some_iff, exists_and_left, exists_eq,
    and_true]

theorem Finding.ofMatch?_missing {s : Stmt} {m : Match} {f : Finding}
    (h : Finding.ofMatch? s m = some f) : f.missing = m.missing := by
  rw [(Finding.ofMatch?_eq_some_iff.mp h).2]

theorem Finding.found_of_ofMatch? {s : Stmt} {m : Match} {f : Finding}
    (h : Finding.ofMatch? s m = some f) : f.found = m := by
  rw [(Finding.ofMatch?_eq_some_iff.mp h).2]

theorem Finding.node_of_ofMatch? {s : Stmt} {m : Match} {f : Finding}
    (h : Finding.ofMatch? s m = some f) : f.node = s := by
  rw [(Finding.ofMatch?_eq_some_iff.mp h).2]

/-- The values that a recognised chain misses are those of its domain on which it takes no branch,
and a finding lists them once each, in the order of the domain. A sharp value that equals a missing
one takes no branch either; those that are kept exactly are sharp. -/
theorem missing_of_chain_iff_takesBranch {o : Shapes} {s : Stmt} {m : Match}
    (hm : Match.ofChain? o s = some m) (hp : ∀ l ∈ m.domain, l.value.IsProper) :
    (∀ l ∈ m.domain, s.takesBranch o l.value = false → ∃ w ∈ m.missing, l.value.same w = true) ∧
    (∀ l ∈ m.domain, l.value.IsSharpIn (m.values ++ m.handled) →
      ((∃ w ∈ m.missing, l.value.same w = true) ↔ s.takesBranch o l.value = false)) ∧
    (∀ v : Value, v.isExact = true → v.IsSharpIn (m.values ++ m.handled)) ∧
    ((Finding.of? o s).isSome = true ↔ ∃ l ∈ m.domain, s.takesBranch o l.value = false) ∧
    ∀ f, Finding.of? o s = some f →
      f.missing = m.missing ∧
      f.missing.Sublist ((m.domain.map (·.value)).filter fun v => !s.takesBranch o v) ∧
      f.missing.Pairwise fun v w => v.same w = false := by
  have hhandled (v : Value) : Value.occursIn m.handled v = s.takesBranch o v :=
    Match.occursIn_handled hm v
  have hleft {l : Literal} (hl : l ∈ m.domain) (hb : s.takesBranch o l.value = false) :
      ∃ w ∈ m.missing, l.value.same w = true := by
    rw [← hhandled] at hb
    have := occursIn_missing (List.mem_map_of_mem hl) (hp l hl) hb
    obtain ⟨w, hw, hsame⟩ := Value.occursIn_iff.mp this
    exact ⟨w, hw, by rw [Value.same_comm]; exact hsame⟩
  refine ⟨fun l hl => hleft hl, fun l hl hsharp => ⟨?_, hleft hl⟩,
    fun v hv => Value.isSharpIn_of_isExact hv _, ?_, ?_⟩
  · rintro ⟨w, hw, hsame⟩
    obtain ⟨hmem, hnot⟩ := mem_missing hw
    rw [← hhandled, Bool.eq_false_iff]
    intro htaken
    -- a branch taken on `l` would handle `w` as well
    rw [hsharp.occursIn (List.subset_append_right _ _) (List.mem_append_left _ hmem) htaken
      hsame] at hnot
    cases hnot
  · rw [Finding.of?_ofChain hm, Finding.ofMatch?_isSome, Match.missing, missing_ne_nil_iff]
    simp only [hhandled, List.mem_map]
    constructor
    · rintro ⟨v, ⟨l, hl, rfl⟩, hb⟩
      exact ⟨l, hl, hb⟩
    · rintro ⟨l, hl, hb⟩
      exact ⟨l.value, ⟨l, hl, rfl⟩, hb⟩
  · intro f hf
    rw [Finding.of?_ofChain hm] at hf
    rw [Finding.ofMatch?_missing hf]
    refine ⟨rfl, ?_, missing_pairwise _ _⟩
    simp only [← hhandled]
    exact missing_sublist _ _

/-- The shapes of a variable `x` with the given members, and of constants with one-letter names. -/
def shapesOfNames (members : List Value) (constants : List (UInt8 × Value)) : Shapes
  | .ident ⟨_, [name]⟩ =>
    if name = 0x78 then .union (members.map fun v => .literal ⟨v, [], 0⟩)
    else
      match constants.lookup name with
      | some v => .literal ⟨v, [], 0⟩
      | none => .other
  | _ => .other

/-- Shapes that are looked up by the printed form of an expression. -/
def shapesOfTexts (table : List (Text × Shape)) : Shapes := fun e =>
  (table.lookup e.text).getD .other

/-- The comparison of `x` with a constant. -/
def comparedWith (name : UInt8) : Expr := .binary (.ident ⟨0, [0x78]⟩) .eql (.ident ⟨0, [name]⟩)

/-- The chain `if x == a || (x == b) {} else if x == c {}`. -/
def threeComparisons : Stmt :=
  .ifChain 0 .absent
    (.binary (comparedWith 0x61) .lor (.paren 0 (comparedWith 0x62) 0)) (.block 0 [] 0)
    (.ifChain 0 .absent (comparedWith 0x63) (.block 0 [] 0) .absent)

/-- `x` is one of 0 to 4; `a` is 0, `b` is 2, held as a fraction, and `c` is 3. -/
def shapesOfFive : Shapes :=
  shapesOfNames ([0, 1, 2, 3, 4].map fun n => .of (.int n))
    [(0x61, .of (.int 0)), (0x62, .of (.frac 2)), (0x63, .of (.int 3))]

/-- What is recognised in the chain. -/
def threeOfFive : Match :=
  ⟨.ident ⟨0, [0x78]⟩, [0, 1, 2, 3, 4].map fun n => ⟨.of (.int n), [], 0⟩,
    [.of (.int 0), .of (.frac 2), .of (.int 3)]⟩

theorem missing_of_threeComparisons :
    Match.ofChain? shapesOfFive threeComparisons = some threeOfFive ∧
    (∀ l ∈ threeOfFive.domain, l.value.IsProper) ∧
    threeOfFive.missing = [.of (.int 1), .of (.int 4)] ∧
    (∀ l ∈ threeOfFive.domain, l.value.IsSharpIn (threeOfFive.values ++ threeOfFive.handled)) ∧
    ∀ l ∈ threeOfFive.domain, ((∃ w ∈ threeOfFive.missing, l.value.same w = true) ↔
      threeComparisons.takesBranch shapesOfFive l.value = false) := by
  have hproper : ∀ l ∈ threeOfFive.domain, l.value.IsProper := by decide
  have hexact : ∀ l ∈ threeOfFive.domain, l.value.isExact = true := by decide
  obtain ⟨-, hiff, hsharp, -⟩ :=
    missing_of_chain_iff_takesBranch (s := threeComparisons) (o := shapesOfFive) rfl hproper
  replace hsharp : ∀ l ∈ threeOfFive.domain,
      l.value.IsSharpIn (threeOfFive.values ++ threeOfFive.handled) := fun l hl =>
    hsharp l.value (hexact l hl)
  exact ⟨rfl, hproper, by decide +kernel, hsharp, fun l hl => hiff l hl (hsharp l hl)⟩

/-- Equality with a rounded value is not transitive, so a value may take a branch and yet equal a
missing one: `2 ^ 5000 + 1` is missing when only `2 ^ 5000` is handled, and the rounded `2 ^ 5000`
equals both. -/
theorem missing_of_chain_at_rounded :
    ¬ ∀ (o : Shapes) (s : Stmt) (m : Match), Match.ofChain? o s = some m →
      (∀ l ∈ m.domain, l.value.IsProper) → ∀ l ∈ m.domain,
        ((∃ w ∈ m.missing, l.value.same w = true) ↔ s.takesBranch o l.value = false) := by
  intro h
  have := h (shapesOfNames [.of (.int (2 ^ 5000 + 1)), .of (.real (.wide ⟨1, 5000⟩))]
      [(0x61, .of (.int (2 ^ 5000)))])
    (.ifChain 0 .absent (comparedWith 0x61) (.block 0 [] 0) .absent)
    ⟨.ident ⟨0, [0x78]⟩,
      [⟨.of (.int (2 ^ 5000 + 1)), [], 0⟩, ⟨.of (.real (.wide ⟨1, 5000⟩)), [], 0⟩],
      [.of (.int (2 ^ 5000))]⟩ rfl (by decide +kernel)
    ⟨.of (.real (.wide ⟨1, 5000⟩)), [], 0⟩ (by decide +kernel)
  have hno := this.mp ⟨.of (.int (2 ^ 5000 + 1)), by decide +kernel, by decide +kernel⟩
  revert hno
  decide +kernel

end CaseCover
