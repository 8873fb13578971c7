import CaseCover.Coverage.Shape
import CaseCover.Source.Printed

/-!
# Recognised constructs

A switch statement without a default clause, or a chain of if statements without a final else, is
recognised when its discriminant has a closed union as type. The match keeps the discriminant, the
members of the union and the values the construct handles.

The conditions of a chain are disjunctions of equalities between one discriminant and literal
values. Discriminants are compared by their printed form, and both sides of an equality must be
free of side effects, because the construct is judged as if each were evaluated once.
-/

namespace CaseCover

/-- Evaluating the expression has no side effects: names, literals, field selections and signs. -/
def Expr.isPure : Expr → Bool
  | .ident _ => true
  | .literal _ _ _ => true
  | .selector x _ => x.isPure
  | .unary _ op x => (op == .add || op == .sub) && x.isPure
  | _ => false

/-- Two expressions have the same printed form. -/
def Expr.printsLike (a b : Expr) : Bool := a.text == b.text

/-- A recognised construct. -/
structure Match where
  discriminant : Expr
  domain : List Literal
  handled : List Value

namespace Match

/-- The values of the domain that no clause handles. -/
def missing (m : Match) : List Value := CaseCover.missing (m.domain.map (·.value)) m.handled

end Match

/-! ## Switch statements -/

/-- One of the clauses is the default clause. -/
def anyDefault (clauses : List Stmt) : Bool :=
  clauses.any fun s =>
    match s with
    | .caseClause _ isDefault _ _ _ => isDefault
    | _ => false

/-- The literal values among expressions. -/
def literalValues (o : Shapes) (es : List Expr) : List Value :=
  es.filterMap fun e => (o e).literalValue?

/-- The values that the clauses of a switch handle; none when a statement is no clause. -/
def handledByClauses (o : Shapes) : List Stmt → Option (List Value)
  | [] => some []
  | .caseClause _ _ exprs _ _ :: rest =>
    (handledByClauses o rest).map (literalValues o exprs ++ ·)
  | _ :: _ => none

/-- Recognises a switch with a tag and without a default clause over a closed union. Case
expressions that are no literals contribute nothing. -/
def Match.ofSwitch? (o : Shapes) : Stmt → Option Match
  | .switchOn _ _ tag (.block _ clauses _) =>
    if tag.isAbsent || anyDefault clauses then none
    else do
      let domain ← (o tag).closedMembers?
      let handled ← handledByClauses o clauses
      some ⟨tag, domain, handled⟩
  | _ => none

/-! ## Chains of if statements -/

/-- What a walk along a chain has seen: the discriminant, once there is one, and the values
compared with it. -/
structure Chain where
  discriminant : Option Expr
  handled : List Value

namespace Chain

/-- Nothing seen yet. -/
def start : Chain := ⟨none, []⟩

/-- The chain after an equality, or none when it does not fit. -/
def addEquality (o : Shapes) (c : Chain) (lhs rhs : Expr) : Option Chain :=
  if lhs.isPure && rhs.isPure then
    match c.discriminant with
    | none => (o rhs).literalValue?.map fun v => ⟨some lhs, c.handled ++ [v]⟩
    | some d =>
      if lhs.printsLike d then
        (o rhs).literalValue?.map fun v => ⟨some d, c.handled ++ [v]⟩
      else none
  else none

/-- The chain after a condition: a disjunction of equalities, with any parentheses around them. -/
def addCondition (o : Shapes) : Chain → Expr → Option Chain
  | c, .paren _ inner _ => addCondition o c inner
  | c, .binary x .lor y => (addCondition o c x).bind fun c => addCondition o c y
  | c, .binary x .eql y => addEquality o c x y
  | _, _ => none

/-- The chain after its else part: nothing more, or a further if statement without an init
statement, which might change the discriminant. -/
def addLinks (o : Shapes) : Chain → Stmt → Option Chain
  | c, .absent => some c
  | c, .bareIf => some c
  | c, .ifChain _ .absent cond _ other => (addCondition o c cond).bind fun c => addLinks o c other
  | _, _ => none

end Chain

/-- Recognises a chain of if statements without a final else over a closed union. -/
def Match.ofChain? (o : Shapes) : Stmt → Option Match
  | .ifChain _ _ cond _ other => do
    let c ← Chain.start.addCondition o cond
    let c ← c.addLinks o other
    let d ← c.discriminant
    let domain ← (o d).closedMembers?
    some ⟨d, domain, c.handled⟩
  | _ => none

/-- Following a chain ran into an if statement of which only the kind is known. -/
inductive LinkFault where
  | bareLink
deriving DecidableEq

/-- The if statements in an else part, outermost first. -/
def linksFrom : Stmt → Except LinkFault (List Stmt)
  | .ifChain pos init cond body other =>
    (linksFrom other).map (.ifChain pos init cond body other :: ·)
  | .bareIf => .error .bareLink
  | _ => .ok []

/-- The if statements linked into the else chain of a statement, itself excluded. -/
def Stmt.laterLinks : Stmt → Except LinkFault (List Stmt)
  | .ifChain _ _ _ _ other => linksFrom other
  | _ => .ok []

end CaseCover
