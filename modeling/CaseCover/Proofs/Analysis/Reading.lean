import CaseCover.Proofs.Analysis.Traversal

/-!
# Reading statements of which parts are missing

Of a statement only the kind may be known, a switch may have no tag or no body, and anything may stand
as an else part. A careful reader opens a statement before it looks at its parts, and that fails
where there are none; it walks along a chain round by round, and that fails when the rounds do not
suffice. Judging a statement asks before it opens anything, so the careful reader gets through every
statement and comes to the same finding (`readFinding_eq`).

Following the else parts of a recognised chain once more does not ask: it fails exactly when the chain
ends in an if statement of which only the kind is known. Otherwise it finds the links whose conditions
make up the match (`links_of_chain`).
-/

namespace CaseCover.Analysis

/-- Why a careful reader gives up: what it opened has no parts, or it was not done in time. -/
inductive ReadFault where
  | noParts
  | noRounds
deriving DecidableEq

/-! ## Opening statements -/

/-- Only the kind of the statement is known. -/
def isBare : Stmt → Bool
  | .bareIf | .bareSwitch => true
  | _ => false

/-- The statement is an if statement, of which maybe only the kind is known. -/
def isIfKind : Stmt → Bool
  | .ifChain .. | .bareIf => true
  | _ => false

/-- The tag and the body of a switch statement. -/
def openSwitch : Stmt → Except ReadFault (Expr × Stmt)
  | .switchOn _ _ tag body => .ok (tag, body)
  | _ => .error .noParts

/-- The init statement, the condition and the else part of an if statement. -/
def openIf : Stmt → Except ReadFault (Stmt × Expr × Stmt)
  | .ifChain _ init cond _ other => .ok (init, cond, other)
  | _ => .error .noParts

/-- The statements in the braces of a block. -/
def openBlock : Stmt → Except ReadFault (List Stmt)
  | .block _ body _ => .ok body
  | _ => .error .noParts

/-! ## The careful reader -/

/-- Recognises a switch statement. -/
def readSwitch (o : Shapes) (s : Stmt) : Except ReadFault (Option Match) := do
  if isBare s then return none
  let (tag, body) ← openSwitch s
  if tag.isAbsent || body.blockBody?.isNone then return none
  let clauses ← openBlock body
  if anyDefault clauses then return none
  return do
    let domain ← (o tag).closedMembers?
    let handled ← handledByClauses o clauses
    some ⟨tag, domain, handled⟩

/-- Walks along a chain from `s` on. Only the first link may have an init statement. -/
def walkLinks (o : Shapes) : Nat → Bool → Chain → Stmt → Except ReadFault (Option Chain)
  | 0, _, _, _ => .error .noRounds
  | rounds + 1, first, c, s => do
    if isBare s then return some c
    let (init, cond, other) ← openIf s
    if !first && !init.isAbsent then return none
    match c.addCondition o cond with
    | none => return none
    | some c =>
      if other.isAbsent then return some c
      else if isIfKind other then walkLinks o rounds false c other
      else return none

/-- Recognises a chain of if statements. -/
def readChain (o : Shapes) (rounds : Nat) (s : Stmt) : Except ReadFault (Option Match) := do
  if isBare s then return none
  let walked ← walkLinks o rounds true Chain.start s
  return do
    let c ← walked
    let d ← c.discriminant
    let domain ← (o d).closedMembers?
    some ⟨d, domain, c.handled⟩

/-- Judges a statement. -/
def readFinding (o : Shapes) (rounds : Nat) (s : Stmt) : Except ReadFault (Option Finding) := do
  let found ← match s with
    | .switchOn .. | .bareSwitch => readSwitch o s
    | .ifChain .. | .bareIf => readChain o rounds s
    | _ => return none
  return found.bind (Finding.ofMatch? s)

/-- The number of links of a chain. -/
def linkCount : Stmt → Nat
  | .ifChain _ _ _ _ other => linkCount other + 1
  | _ => 0

variable {o : Shapes} {s : Stmt}

theorem readSwitch_eq (pos : Pos) (init : Stmt) (tag : Expr) (body : Stmt) :
    readSwitch o (.switchOn pos init tag body) =
      .ok (Match.ofSwitch? o (.switchOn pos init tag body)) := by
  have hopen : readSwitch o (.switchOn pos init tag body) =
      if tag.isAbsent || body.blockBody?.isNone then .ok none
      else (openBlock body).bind fun clauses =>
        if anyDefault clauses then .ok none
        else .ok (do
          let domain ← (o tag).closedMembers?
          let handled ← handledByClauses o clauses
          some ⟨tag, domain, handled⟩) := rfl
  rw [hopen]
  cases body with
  | block start clauses close =>
    -- what the guards let through has a tag, a body and no default clause
    cases htag : tag.isAbsent with
    | true => simp [Match.ofSwitch?, htag]
    | false =>
      cases hdefault : anyDefault clauses with
      | true => simp [Match.ofSwitch?, openBlock, Stmt.blockBody?, Except.bind, hdefault]
      | false => simp [Match.ofSwitch?, openBlock, Stmt.blockBody?, Except.bind, htag, hdefault]
  | _ => simp [Match.ofSwitch?, Stmt.blockBody?]

/-- One round at an if statement with all its parts. -/
theorem walkLinks_succ (rounds : Nat) (first : Bool) (c : Chain) (pos : Pos) (init : Stmt)
    (cond : Expr) (body other : Stmt) :
    walkLinks o (rounds + 1) first c (.ifChain pos init cond body other) =
      if !first && !init.isAbsent then .ok none
      else
        match c.addCondition o cond with
        | none => .ok none
        | some c =>
          if other.isAbsent then .ok (some c)
          else if isIfKind other then walkLinks o rounds false c other
          else .ok none := rfl

/-- From an else part on, the walk goes as far as the chain does. -/
theorem walkLinks_else (c : Chain) (other : Stmt) {rounds : Nat} (h : linkCount other < rounds) :
    (if other.isAbsent then .ok (some c)
      else if isIfKind other then walkLinks o rounds false c other
      else .ok none : Except ReadFault (Option Chain)) = .ok (c.addLinks o other) := by
  fun_induction Chain.addLinks o c other generalizing rounds with
  | case1 c => rfl
  | case2 c =>
    cases rounds with
    | zero => exact absurd h (Nat.not_lt_zero _)
    | succ rounds => rfl
  | case3 c pos cond body other ih =>
    cases rounds with
    | zero => exact absurd h (Nat.not_lt_zero _)
    | succ rounds =>
      have hthere : (Stmt.ifChain pos .absent cond body other).isAbsent = false := rfl
      have hkind : isIfKind (.ifChain pos .absent cond body other) = true := rfl
      rw [hthere, hkind, if_neg Bool.false_ne_true, if_pos rfl, walkLinks_succ]
      cases hcond : c.addCondition o cond with
      | none => rfl
      | some d => exact ih d (Nat.lt_of_succ_lt_succ h)
  | case4 other c habsent hbare hlink =>
    cases other with
    | absent => exact absurd rfl habsent
    | bareIf => exact absurd rfl hbare
    | ifChain pos init cond body other =>
      cases rounds with
      | zero => exact absurd h (Nat.not_lt_zero _)
      | succ rounds =>
        have hinit : init.isAbsent = false := by
          cases init with
          | absent => exact absurd rfl (hlink pos cond body other)
          | _ => rfl
        have hthere : (Stmt.ifChain pos init cond body other).isAbsent = false := rfl
        have hkind : isIfKind (.ifChain pos init cond body other) = true := rfl
        rw [hthere, hkind, if_neg Bool.false_ne_true, if_pos rfl, walkLinks_succ, hinit]
        rfl
    | _ => rfl

theorem readChain_eq (pos : Pos) (init : Stmt) (cond : Expr) (body other : Stmt) {rounds : Nat}
    (h : linkCount other + 1 < rounds) :
    readChain o rounds (.ifChain pos init cond body other) =
      .ok (Match.ofChain? o (.ifChain pos init cond body other)) := by
  obtain ⟨rounds, rfl⟩ : ∃ n, rounds = n + 1 := ⟨rounds - 1, by omega⟩
  have hwalk : walkLinks o (rounds + 1) true Chain.start (.ifChain pos init cond body other) =
      .ok ((Chain.start.addCondition o cond).bind fun c => c.addLinks o other) := by
    rw [walkLinks_succ]
    cases hcond : Chain.start.addCondition o cond with
    | none => rfl
    | some c => exact walkLinks_else c other (Nat.lt_of_succ_lt_succ h)
  have hopen : readChain o (rounds + 1) (.ifChain pos init cond body other) =
      (walkLinks o (rounds + 1) true Chain.start (.ifChain pos init cond body other)).bind
        fun walked => .ok (do
          let c ← walked
          let d ← c.discriminant
          let domain ← (o d).closedMembers?
          some ⟨d, domain, c.handled⟩) := rfl
  rw [hopen, hwalk, Match.ofChain?]
  cases Chain.start.addCondition o cond <;> rfl

/-- The careful reader gets through every statement, in one round more than a chain has links, and
finds what is found without care. -/
theorem readFinding_eq (o : Shapes) (s : Stmt) {rounds : Nat} (h : linkCount s < rounds) :
    readFinding o rounds s = .ok (Finding.of? o s) := by
  have hjudge {r : Except ReadFault (Option Match)} (hr : r = .ok (recognise o s)) :
      (r.bind fun found => .ok (found.bind (Finding.ofMatch? s))) = .ok (Finding.of? o s) := by
    rw [hr]
    rfl
  cases s with
  | switchOn pos init tag body => exact hjudge (readSwitch_eq pos init tag body)
  | ifChain pos init cond body other => exact hjudge (readChain_eq pos init cond body other h)
  | _ => rfl

/-! ## Following the else parts -/

/-- The statements are the if statements from an else part on, each the else part of the one before
it, and nothing is left over. -/
def IsElseChain : Stmt → List Stmt → Prop
  | other, [] => other = .absent
  | other, t :: ts => other = t ∧ IsIf t ∧ IsElseChain (elsePart t) ts

/-- The chain after the condition of one more link. -/
def addIf (o : Shapes) (c : Chain) : Stmt → Option Chain
  | .ifChain _ _ cond _ _ => c.addCondition o cond
  | _ => none

theorem linksFrom_eq_error_iff {f : LinkFault} : linksFrom s = .error f ↔ chainEnd s = .bareIf := by
  fun_induction linksFrom s with
  | case1 pos init cond body other ih =>
    rw [chainEnd, ← ih]
    cases linksFrom other <;> simp [Except.map]
  | case2 => simp [chainEnd]
  | case3 s hlink hbare =>
    constructor
    · rintro ⟨⟩
    · intro hend
      unfold chainEnd at hend
      split at hend
      · next pos init cond body other => exact absurd rfl (hlink pos init cond body other)
      · exact absurd hend hbare

theorem laterLinks_eq_error_iff (hs : IsIf s) {f : LinkFault} :
    s.laterLinks = .error f ↔ chainEnd s = .bareIf := by
  obtain ⟨pos, init, cond, body, other, rfl⟩ := hs
  exact linksFrom_eq_error_iff

/-- The links that a recognised chain has from an else part on. -/
theorem linksFrom_of_addLinks {c c' : Chain} {other : Stmt} (h : c.addLinks o other = some c')
    (hend : chainEnd other ≠ .bareIf) :
    ∃ links, linksFrom other = .ok links ∧ IsElseChain other links ∧
      links.foldlM (addIf o) c = some c' := by
  fun_induction Chain.addLinks o c other generalizing c' with
  | case1 c => exact ⟨[], rfl, rfl, h⟩
  | case2 c => exact absurd rfl hend
  | case3 c pos cond body other ih =>
    obtain ⟨d, hcond, hother⟩ := Option.bind_eq_some_iff.mp h
    obtain ⟨links, hlinks, hchain, hfold⟩ := ih d hother hend
    refine ⟨.ifChain pos .absent cond body other :: links, ?_,
      ⟨rfl, ⟨_, _, _, _, _, rfl⟩, hchain⟩, ?_⟩
    · rw [linksFrom, hlinks]
      rfl
    · rw [List.foldlM_cons, addIf, hcond]
      exact hfold
  | case4 => cases h

theorem links_of_chain {m : Match} (hm : Match.ofChain? o s = some m)
    (hend : chainEnd s ≠ .bareIf) :
    ∃ links, s.laterLinks = .ok links ∧ IsElseChain (elsePart s) links ∧
      (s :: links).foldlM (addIf o) Chain.start = some ⟨some m.discriminant, m.handled⟩ := by
  obtain ⟨pos, init, cond, body, other, first, last, rfl, hcond, hlinks, hd, -, hhandled⟩ :=
    Match.ofChain?_eq_some hm
  obtain ⟨links, hlater, hchain, hfold⟩ := linksFrom_of_addLinks hlinks hend
  refine ⟨links, hlater, hchain, ?_⟩
  rw [List.foldlM_cons, addIf, hcond, ← hd, ← hhandled]
  exact hfold

/-- A careful reader gets through every statement, and finds what is found without care. Following
the else parts of a recognised chain fails exactly where the chain ends in an if statement of which
only the kind is known; otherwise it finds the links after the first one, up to the last, and what
the match handles comes from the conditions of the first link and of these, in this order. -/
theorem judges_and_follows (o : Shapes) (s : Stmt) :
    (∀ rounds, linkCount s < rounds → readFinding o rounds s = .ok (Finding.of? o s)) ∧
    ∀ m, Match.ofChain? o s = some m →
      (s.laterLinks = .error .bareLink ↔ chainEnd s = .bareIf) ∧
      (chainEnd s ≠ .bareIf → ∃ links, s.laterLinks = .ok links ∧ IsElseChain (elsePart s) links ∧
        (s :: links).foldlM (addIf o) Chain.start = some ⟨some m.discriminant, m.handled⟩) := by
  refine ⟨fun rounds h => readFinding_eq o s h, fun m hm => ⟨?_, links_of_chain hm⟩⟩
  obtain ⟨pos, init, cond, body, other, -, -, rfl, -⟩ := Match.ofChain?_eq_some hm
  exact laterLinks_eq_error_iff ⟨pos, init, cond, body, other, rfl⟩

theorem judges_and_follows_threeComparisons :
    linkCount threeComparisons < 3 ∧
    readFinding shapesOfFive 3 threeComparisons = .ok (Finding.of? shapesOfFive threeComparisons) ∧
    Match.ofChain? shapesOfFive threeComparisons = some threeOfFive ∧
    chainEnd threeComparisons ≠ .bareIf ∧
    ∃ links, threeComparisons.laterLinks = .ok links ∧
      (threeComparisons :: links).foldlM (addIf shapesOfFive) Chain.start =
        some ⟨some threeOfFive.discriminant, threeOfFive.handled⟩ := by
  have hcount : linkCount threeComparisons < 3 := by decide
  have hend : chainEnd threeComparisons ≠ .bareIf := fun h => nomatch h
  obtain ⟨hread, hfollow⟩ := judges_and_follows shapesOfFive threeComparisons
  obtain ⟨links, hlinks, -, hfold⟩ := (hfollow threeOfFive rfl).2 hend
  exact ⟨hcount, hread 3 hcount, rfl, hend, links, hlinks, hfold⟩

/-- The chain `if x == a {}` with an else part that is an if statement of which only the kind is
known. -/
def bareEnd : Stmt := .ifChain 0 .absent (comparedWith 0x61) (.block 0 [] 0) .bareIf

/-- It is recognised, but its else parts cannot be followed. -/
theorem follows_not_to_bareIf :
    ¬ ∀ (o : Shapes) (s : Stmt) (m : Match), Match.ofChain? o s = some m →
      ∃ links, s.laterLinks = .ok links := by
  intro h
  obtain ⟨links, hlinks⟩ := h shapesOfFive bareEnd
    ⟨threeOfFive.discriminant, threeOfFive.domain, [.of (.int 0)]⟩ rfl
  cases hlinks

end CaseCover.Analysis
