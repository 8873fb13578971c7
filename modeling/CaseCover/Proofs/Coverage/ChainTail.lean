import CaseCover.Proofs.Analysis.Reading
import CaseCover.Proofs.Coverage.ChainGrammar
import CaseCover.Proofs.Coverage.Difference

/-!
# Tails of chains

The links of a recognised chain after the first one are not judged again. Each of them is an if
statement, and its chain is a tail of the whole: the comparisons of the tail are the last ones of
the whole (`exists_cut_of_linksFrom`), so it is recognised as well if expressions that print alike
have one type (`IsMatchOf.tail`). It handles fewer values, and what it misses in addition is handled
by a link before it.
-/

namespace CaseCover

/-- Expressions with one printed form have types of one shape. -/
def Shapes.GoesByText (o : Shapes) : Prop := ∀ a b : Expr, a.printsLike b = true → o a = o b

/-- The condition of an if statement is true when the discriminant has the value `v`. -/
def Stmt.holdsAt (o : Shapes) (v : Value) : Stmt → Bool
  | .ifChain _ _ cond _ _ => cond.holdsAt o v
  | _ => false

variable {o : Shapes}

/-! ## Conditions as comparisons -/

/-- One of the comparisons is true when the discriminant has the value `v`. -/
def oneHoldsAt (o : Shapes) (cs : List Comparison) (v : Value) : Bool :=
  cs.any fun c => (o c.2).literalValue?.any v.same

theorem oneHoldsAt_append (cs ds : List Comparison) (v : Value) :
    oneHoldsAt o (cs ++ ds) v = (oneHoldsAt o cs v || oneHoldsAt o ds v) :=
  List.any_append

/-- Comparisons are true where one of their literals equals `v`. -/
theorem oneHoldsAt_eq_occursIn {vs : List Value} {cs : List Comparison}
    (h : vs.map some = cs.map fun c => (o c.2).literalValue?) (v : Value) :
    oneHoldsAt o cs v = Value.occursIn vs v := by
  have hany : oneHoldsAt o cs v = (cs.map fun c => (o c.2).literalValue?).any (·.any v.same) := by
    rw [List.any_map]
    rfl
  rw [hany, ← h, List.any_map, Value.occursIn_eq_any]
  rfl

/-- A disjunction is true where one of its comparisons is. -/
theorem Expr.IsDisjunction.holdsAt_eq {e : Expr} {cs : List Comparison} (h : e.IsDisjunction cs)
    (v : Value) : e.holdsAt o v = oneHoldsAt o cs v := by
  induction h with
  | comparison l r => simp [Expr.holdsAt, oneHoldsAt]
  | either left right ihx ihy => rw [Expr.holdsAt, ihx, ihy, oneHoldsAt_append]
  | paren start close inside ih => exact ih

/-- A link of an else part cuts its comparisons in two: those of the links before it and those of
its own chain. -/
theorem exists_cut_of_linksFrom {other : Stmt} {cs : List Comparison} (h : other.IsElseOf cs)
    {before after : List Stmt} {t : Stmt} (hlinks : linksFrom other = .ok (before ++ t :: after)) :
    ∃ front back, cs = front ++ back ∧ t.IsChainOf back ∧
      ∀ v, oneHoldsAt o front v = before.any (·.holdsAt o v) := by
  induction h generalizing before with
  | nothing =>
    have hnil : [] = before ++ t :: after := Except.ok.inj hlinks
    simp at hnil
  | @link cond other cs ds pos body first rest ih =>
    rw [linksFrom] at hlinks
    cases hother : linksFrom other with
    | error e =>
      rw [hother] at hlinks
      cases hlinks
    | ok found =>
      rw [hother] at hlinks
      have hcons : _ :: found = before ++ t :: after := Except.ok.inj hlinks
      cases before with
      | nil =>
        obtain ⟨rfl, -⟩ := List.cons.inj hcons
        exact ⟨[], cs ++ ds, rfl, .chain pos .absent body first rest, fun _ => rfl⟩
      | cons u before =>
        obtain ⟨rfl, hfound⟩ := List.cons.inj hcons
        obtain ⟨front, back, rfl, hback, hfront⟩ := ih (hfound ▸ hother)
        refine ⟨cs ++ front, back, (List.append_assoc _ _ _).symm, hback, fun v => ?_⟩
        rw [oneHoldsAt_append, List.any_cons, hfront, ← first.holdsAt_eq]
        rfl

/-- A later link of a chain cuts its comparisons in two. -/
theorem exists_cut_of_laterLinks {s : Stmt} {cs : List Comparison} (h : s.IsChainOf cs)
    {before after : List Stmt} {t : Stmt} (hlinks : s.laterLinks = .ok (before ++ t :: after)) :
    ∃ front back, cs = front ++ back ∧ t.IsChainOf back ∧
      ∀ v, oneHoldsAt o front v = (s :: before).any (·.holdsAt o v) := by
  cases h with
  | @chain cond other cs ds pos init body first rest =>
    obtain ⟨front, back, rfl, hback, hfront⟩ := exists_cut_of_linksFrom (o := o) rest hlinks
    refine ⟨cs ++ front, back, (List.append_assoc _ _ _).symm, hback, fun v => ?_⟩
    rw [oneHoldsAt_append, List.any_cons, hfront, ← first.holdsAt_eq]
    rfl

/-! ## What is recognised in a tail -/

/-- The last comparisons of a chain are over its discriminant, in the form in which it is there. -/
theorem AreOver.tail {d : Expr} {front back : List Comparison} (h : AreOver o d (front ++ back))
    (ho : o.GoesByText) (hback : back ≠ []) :
    ∃ d', d'.printsLike d = true ∧ AreOver o d' back := by
  obtain ⟨c, rest, rfl⟩ := List.exists_cons_of_ne_nil hback
  have hmem {p : Comparison} (hp : p ∈ c :: rest) : p ∈ front ++ c :: rest :=
    List.mem_append_right front hp
  have hsame := h.same c (hmem List.mem_cons_self)
  refine ⟨c.1, hsame, rfl, fun p hp => h.pure p (hmem hp), fun p hp => ?_,
    fun p hp => h.literals p (hmem hp), ?_⟩
  · have hp := h.same p (hmem hp)
    rw [Expr.printsLike, beq_iff_eq] at hp hsame ⊢
    rw [hp, hsame]
  · rw [ho _ _ hsame]
    exact h.closed

/-- The last comparisons of a recognised chain make up a match with the same domain, and handle the
last of the handled values. -/
theorem IsMatchOf.tail {front back : List Comparison} {m : Match}
    (h : IsMatchOf o (front ++ back) m) (ho : o.GoesByText) (hback : back ≠ []) :
    ∃ m', IsMatchOf o back m' ∧ m'.discriminant.printsLike m.discriminant = true ∧
      m'.domain = m.domain ∧ ∃ earlier, m.handled = earlier ++ m'.handled ∧
        earlier.map some = front.map fun c => (o c.2).literalValue? := by
  obtain ⟨d, hd, hfits⟩ := h.fits.tail ho hback
  have hhandled := h.handled
  rw [List.map_append] at hhandled
  obtain ⟨earlier, later, hcut, hearlier, hlater⟩ := List.map_eq_append_iff.mp hhandled
  exact ⟨⟨d, m.domain, later⟩, ⟨hfits, (ho d _ hd).trans h.domain, hlater⟩, hd, rfl, earlier,
    hcut, hearlier⟩

/-! ## Later links -/

theorem Stmt.IsElseOf.chainEnd_eq {other : Stmt} {cs : List Comparison} (h : other.IsElseOf cs) :
    Analysis.chainEnd other = .absent := by
  induction h with
  | nothing => rfl
  | link pos body first rest ih => exact ih

theorem Stmt.IsChainOf.chainEnd_ne {s : Stmt} {cs : List Comparison} (h : s.IsChainOf cs) :
    Analysis.chainEnd s ≠ .bareIf := by
  cases h with
  | chain pos init body first rest =>
    rw [Analysis.chainEnd, rest.chainEnd_eq]
    intro h
    cases h

/-- More handled values leave fewer missing, if the values of the domain are sharp. -/
theorem missing_append_sublist {domain h₁ h₂ : List Value}
    (hsharp : ∀ v ∈ domain, v.IsSharpIn (domain ++ (h₁ ++ h₂))) :
    (missing domain (h₁ ++ h₂)).Sublist (missing domain h₂) := by
  have hswap : domain ++ (h₂ ++ h₁) ⊆ domain ++ (h₁ ++ h₂) :=
    (List.perm_append_comm.append_left domain).subset
  have hcomm : missing domain (h₁ ++ h₂) = missing domain (h₂ ++ h₁) :=
    missing_congr fun v _ => by simp only [Value.occursIn_append, Bool.or_comm]
  rw [hcomm, missing_append fun v hv => (hsharp v hv).mono hswap, missing_missing]
  exact List.filter_sublist

/-- What is recognised in a chain, compared with what is recognised in a tail of it. The links of
the chain up to the tail are `before`. -/
structure IsTail (o : Shapes) (before : List Stmt) (m tail : Match) : Prop where
  discriminant : tail.discriminant.printsLike m.discriminant = true
  domain : tail.domain = m.domain
  /-- The tail handles the last of the handled values. -/
  handled : tail.handled <:+ m.handled
  /-- What the chain misses equals something that the tail misses. -/
  missing : ∀ v ∈ m.missing, ∃ w ∈ tail.missing, v.same w = true
  /-- If the values of the domain are sharp, the tail misses what the chain misses. -/
  sublist : m.IsSharp → m.missing.Sublist tail.missing
  /-- If the chain misses nothing, a link before the tail handles what the tail misses. -/
  exhaustive : m.missing = [] → ∀ w ∈ tail.missing, ∃ u ∈ before, u.holdsAt o w = true

/-- Every later link of a recognised chain is recognised as well, as a tail of it. Where the
comparison needs sharp values, those that are kept exactly will do. -/
theorem tail_of_chain {s : Stmt} {m : Match} (ho : o.GoesByText) (hm : Match.ofChain? o s = some m)
    (hp : ∀ l ∈ m.domain, l.value.IsProper) :
    (∀ before t after, s.laterLinks = .ok (before ++ t :: after) →
      ∃ tail, Match.ofChain? o t = some tail ∧ IsTail o (s :: before) m tail) ∧
    ((∀ l ∈ m.domain, l.value.isExact = true) → m.IsSharp) := by
  refine ⟨fun before t after hlinks => ?_, Match.isSharp_of_isExact⟩
  obtain ⟨pos, init, cond, body, other, -, -, rfl, -⟩ := Match.ofChain?_eq_some hm
  have hend : Analysis.chainEnd (.ifChain pos init cond body other) ≠ .bareIf := by
    intro hbare
    rw [← Analysis.laterLinks_eq_error_iff ⟨_, _, _, _, _, rfl⟩ (f := .bareLink), hlinks] at hbare
    cases hbare
  obtain ⟨cs, hcs, hmatch⟩ := (Match.ofChain?_eq_some_iff hend).mp hm
  obtain ⟨front, back, rfl, hback, hfront⟩ := exists_cut_of_laterLinks (o := o) hcs hlinks
  obtain ⟨tail, htail, hdiscriminant, hdomain, earlier, hcut, hearlier⟩ :=
    hmatch.tail ho hback.ne_nil
  have hvalues : tail.values = m.values := by rw [Match.values, hdomain, Match.values]
  have hmissed {v : Value} (hv : v ∈ tail.missing) :
      v ∈ m.values ∧ Value.occursIn tail.handled v = false := by
    rw [← hvalues]
    exact mem_missing hv
  refine ⟨tail, (Match.ofChain?_eq_some_iff hback.chainEnd_ne).mpr ⟨back, hback, htail⟩,
    hdiscriminant, hdomain, ⟨earlier, hcut.symm⟩, ?_, ?_, ?_⟩
  · intro v hv
    obtain ⟨hmem, hnot⟩ := mem_missing hv
    rw [hcut, Value.occursIn_append, Bool.or_eq_false_iff] at hnot
    obtain ⟨l, hl, rfl⟩ := List.mem_map.mp hmem
    obtain ⟨w, hw, hsame⟩ := Value.occursIn_iff.mp (occursIn_missing hmem (hp l hl) hnot.2)
    rw [Match.missing_eq, hvalues]
    exact ⟨w, hw, by rw [Value.same_comm, hsame]⟩
  · intro hsharp
    rw [Match.missing_eq, Match.missing_eq, hvalues, hcut]
    exact missing_append_sublist fun v hv => hcut ▸ hsharp v hv
  · intro hnone w hw
    obtain ⟨hmem, hnot⟩ := hmissed hw
    have hhandled := missing_eq_nil_iff.mp hnone w hmem
    rw [hcut, Value.occursIn_append, hnot, Bool.or_false, ← oneHoldsAt_eq_occursIn hearlier, hfront,
      List.any_eq_true] at hhandled
    exact hhandled

theorem goesByText_shapesOfTexts (table : List (Text × Shape)) :
    (shapesOfTexts table).GoesByText := by
  intro a b h
  rw [Expr.printsLike, beq_iff_eq] at h
  rw [shapesOfTexts, shapesOfTexts, h]

/-- `x` is 0, 2 or 3; the constants `a`, `b` and `c` are these, and 2 is a fraction in `b`. -/
def shapesOfThree : Shapes :=
  shapesOfTexts [("x", .union ([0, 2, 3].map fun n => .literal ⟨.of (.int n), [], 0⟩)),
    ("a", .literal ⟨.of (.int 0), [], 0⟩), ("b", .literal ⟨.of (.frac 2), [], 0⟩),
    ("c", .literal ⟨.of (.int 3), [], 0⟩)]

/-- What is recognised in `threeComparisons` then. -/
def threeOfThree : Match :=
  ⟨.ident ⟨0, [0x78]⟩, [0, 2, 3].map fun n => ⟨.of (.int n), [], 0⟩,
    [.of (.int 0), .of (.frac 2), .of (.int 3)]⟩

/-- The if statement `if x == c {}`. -/
def lastComparison : Stmt := .ifChain 0 .absent (comparedWith 0x63) (.block 0 [] 0) .absent

theorem tail_of_threeComparisons :
    shapesOfThree.GoesByText ∧
    Match.ofChain? shapesOfThree threeComparisons = some threeOfThree ∧
    (∀ l ∈ threeOfThree.domain, l.value.IsProper) ∧
    threeComparisons.laterLinks = .ok ([] ++ lastComparison :: []) ∧
    threeOfThree.IsSharp ∧
    threeOfThree.missing = [] ∧
    ∃ tail, Match.ofChain? shapesOfThree lastComparison = some tail ∧
      tail.missing = [.of (.int 0), .of (.int 2)] ∧
      threeOfThree.missing.Sublist tail.missing ∧
      ∀ w ∈ tail.missing, ∃ u ∈ [threeComparisons], u.holdsAt shapesOfThree w = true := by
  have ho : shapesOfThree.GoesByText := goesByText_shapesOfTexts _
  have hm : Match.ofChain? shapesOfThree threeComparisons = some threeOfThree := rfl
  have hproper : ∀ l ∈ threeOfThree.domain, l.value.IsProper := by decide
  have hlinks : threeComparisons.laterLinks = .ok ([] ++ lastComparison :: []) := rfl
  have hnone : threeOfThree.missing = [] := by decide +kernel
  obtain ⟨htails, hexact⟩ := tail_of_chain ho hm hproper
  have hsharp := hexact (by decide)
  obtain ⟨tail, htail, hcompare⟩ := htails [] lastComparison [] hlinks
  refine ⟨ho, hm, hproper, hlinks, hsharp, hnone, tail, htail, ?_, hcompare.sublist hsharp,
    hcompare.exhaustive hnone⟩
  cases htail
  decide +kernel

/-- The chain `if x == e {} else if x == c {}`. -/
def evenThenLast : Stmt :=
  .ifChain 0 .absent (comparedWith 0x65) (.block 0 [] 0) lastComparison

/-- If `x` is rounded or odd, the odd number is missing in the chain. In its tail the rounded number
is, which equals the odd one and stands for both. -/
theorem tail_misses_rounded :
    shapesOfRounded.GoesByText ∧
    Match.ofChain? shapesOfRounded evenThenLast =
      some (roundedMatch [evenPower, .of (.int 3)]) ∧
    (∀ l ∈ roundedConstants, l.value.IsProper) ∧
    evenThenLast.laterLinks = .ok [lastComparison] ∧
    Match.ofChain? shapesOfRounded lastComparison = some (roundedMatch [.of (.int 3)]) ∧
    (roundedMatch [evenPower, .of (.int 3)]).missing = [oddPower] ∧
    (roundedMatch [.of (.int 3)]).missing = [roundedPower] ∧
    ¬ (roundedMatch [evenPower, .of (.int 3)]).missing.Sublist
      (roundedMatch [.of (.int 3)]).missing :=
  ⟨goesByText_shapesOfTexts _, rfl, by decide +kernel, rfl, rfl, by decide +kernel,
    by decide +kernel, by decide +kernel⟩

end CaseCover
