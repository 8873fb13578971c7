import CaseCover.Typing.Check

/-!
# Untyped operands

A constant without a type, the result of a comparison, and nil take the type that their place asks
for. What is known about the parts of such an expression is settled together with it. Assigning a
value to a variable is the most common place.
-/

namespace CaseCover.Check

/-- A fact about an expression that has no type yet. -/
def untypedFact? (e : Expr) : Check (Option Fact) := do
  match ← fact? e with
  | some f => return if f.type.isUntyped then some f else none
  | none => return none

/-- The type an untyped operand takes in place of a type that is no type parameter, and its value
there. -/
def implicitPlain (tb : TypeTable) (x : Operand) (b : Basic) (target : Ty) :
    Option (Ty × Option Const) :=
  match tb.under target with
  | .basic c =>
    if c.isUntyped then (b.join c).map fun j => (.basic j, none)
    else
      match x.const? with
      | some v => (v.represent c).map fun w => (target, some w)
      | none =>
        if b == .untypedNil then
          if tb.hasNil target then some (.basic .untypedNil, none) else none
        else if (b.isBoolean && c.isBoolean) || (b.isNumeric && c.isNumeric) ||
            (b.isString && c.isString) then some (target, none)
        else none
  | .interface .. =>
    if b == .untypedNil then some (.basic .untypedNil, none)
    else if (tb.typeSet target).isAll then some (.basic b.settled, none)
    else none
  | .pointer _ | .func .. | .slice _ | .mapping .. | .chan .. =>
    if b == .untypedNil then some (.basic .untypedNil, none) else none
  | _ => none

/-- The type an untyped operand takes in place of a type, and its value there. A type parameter takes
what all its types take; nil stays untyped there too. -/
def implicitType (tb : TypeTable) (x : Operand) (b : Basic) (target : Ty) :
    Option (Ty × Option Const) :=
  match target with
  | .param .. =>
    if tb.underAll target fun u => (implicitPlain tb x b u).isSome then
      some (if b == .untypedNil then .basic .untypedNil else target, none)
    else none
  | target => implicitPlain tb x b target

/-- Gives a type to an expression that had none, after its parts have been given theirs. -/
def settleAt (t : Ty) (final : Bool) (e : Expr) (parts : Fact → Check Unit) : Check Unit := do
  match ← untypedFact? e with
  | none => pure ()
  | some old =>
    parts old
    if !final && t.isUntyped then record e t old.value old.shifted
    else
      let tb ← table
      if old.shifted then require (tb.all Basic.isInteger t) (.badOperand e.pos)
      match old.value, old.type with
      | some c, .basic b =>
        require (implicitType tb ⟨.constant c, old.type, e⟩ b t).isSome (.overflow e.pos)
      | _, _ => pure ()
      record e t old.value old.shifted

/-- The operators that compare. -/
def isComparison : Op → Bool
  | .eql | .neq | .lss | .leq | .gtr | .geq => true
  | _ => false

/-- The operators that shift. -/
def isShift : Op → Bool
  | .shl | .shr => true
  | _ => false

/-- Gives a type to an expression and to its parts that have none. -/
def settle (t : Ty) (final : Bool) : Expr → Check Unit
  | .paren a x b => settleAt t final (.paren a x b) fun _ => settle t final x
  | .unary p op x => settleAt t final (.unary p op x) fun old =>
    if old.value.isSome then pure () else settle t final x
  | .binary x op y => settleAt t final (.binary x op y) fun old => do
    if old.value.isSome || isComparison op then pure ()
    else if isShift op then settle t final x
    else
      settle t final x
      settle t final y
  | e => settleAt t final e fun _ => pure ()

/-- Brings an untyped operand to a type. -/
def convertUntyped (x : Operand) (target : Ty) : Check Operand := do
  match x.type with
  | .basic b =>
    if !b.isUntyped then return x
    match implicitType (← table) x b target with
    | none => throw (.mismatch x.pos)
    | some (t, value) =>
      let x ← match value with
        | some c => do
          match ← untypedFact? x.expr with
          | some f => record x.expr f.type (some c) f.shifted
          | none => pure ()
          pure { x with mode := .constant c }
        | none => pure x
      if t.same x.type then return x
      settle t false x.expr
      return { x with type := t }
  | _ => return x

/-- An operand can be assigned to a variable of a type. -/
def assignableTo (tb : TypeTable) (release : Option Constraint.Release) (x : Operand) (t : Ty) : Bool :=
  match x.type with
  | .basic b =>
    if !b.isUntyped then tb.assignable release x.type t
    else
      tb.same x.type t ||
        (match t with
         | .param .. =>
           let ts := tb.termsOf t
           !ts.isEmpty && ts.all fun u => (implicitPlain tb x b u.type).isSome
         | t => (implicitPlain tb x b t).isSome)
  | v => tb.assignable release v t

/-- An operand can be assigned to a variable of a type. -/
def isAssignable (env : Env) (x : Operand) (t : Ty) : Check Bool := do
  return assignableTo (← table) env.release x t

/-- Assigns an operand to a variable of a type, or to one that takes its type from it. -/
def assign (env : Env) (x : Operand) (target : Option Ty) : Check Operand := do
  let x ← singleValue x
  let tb ← table
  let x ←
    if x.type.isUntyped then do
      match target with
      | none =>
        require (!x.isNil) (.notAssignable x.pos)
        convertUntyped x x.type.settled
      | some t => convertUntyped x (if tb.isInterface t then x.type.settled else t)
    else pure x
  match x.mode with
  | .genericFunc _ => throw (.notAssignable x.pos)
  | _ => pure ()
  match target with
  | none => return x
  | some t =>
    require (← isAssignable env x t) (.notAssignable x.pos)
    return x

end CaseCover.Check
