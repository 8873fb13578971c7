import CaseCover.Typing.Operation
import CaseCover.Typing.TypeExpr

/-!
# Indices and slices

Elements of texts, arrays, slices and maps, and parts of texts, arrays and slices. Where an index and
a length are known, the index must be in range.
-/

namespace CaseCover.Check

/-- The result has a type and no value that is known. -/
def result (e : Expr) (t : Ty) : Operand := ⟨.value, t, e⟩

/-- There is no result. -/
def noResult (e : Expr) : Operand := ⟨.noValue, .tuple [], e⟩

/-- An index or a size: an integer that a word can hold, and mostly not a negative one. Gives its
value where it is known. -/
def indexOperand (negativeOk : Bool) (x : Operand) : Check (Option Int) := do
  let x ← convertUntyped x (.basic .int)
  require ((← table).all Basic.isInteger x.type) (.badOperand x.pos)
  match x.const?.bind Const.toInt? with
  | some v =>
    require (negativeOk || 0 ≤ v) (.badOperand x.pos)
    require (Basic.holds .int v) (.overflow x.pos)
    return some v
  | none => return none

/-- The value of an index below a limit, where it is known. -/
def index (r : TypingRules) (env : Env) (limit : Option Nat) (e : Expr) : Check (Option Nat) := do
  match ← indexOperand false (← expr r env e) with
  | none => return none
  | some v =>
    match limit with
    | some n => require (v < n) (.badOperand e.pos)
    | none => pure ()
    return some v.toNat

/-! ## Elements -/

/-- What an index into a value gives: the type of the keys for maps, the length where it is known,
the type of the elements, and whether they are variables. -/
structure Elements where
  key : Option Ty
  length : Option Nat
  type : Ty
  isVariable : Bool

/-- The elements of a value of an underlying type. -/
def elementsOf (tb : TypeTable) (x : Operand) (u : Ty) : Option Elements :=
  match u with
  | .basic b =>
    if b.isString then
      some ⟨none, (x.const?.bind Const.str?).map List.length, .basic .uint8, false⟩
    else none
  | .array n t => some ⟨none, some n, t, x.isAddressable⟩
  | .pointer p =>
    match tb.under p with
    | .array n t => some ⟨none, some n, t, true⟩
    | _ => none
  | .slice t => some ⟨none, none, t, true⟩
  | .mapping k t => some ⟨some k, none, t, false⟩
  | _ => none

/-- The elements that two types have in common: maps go with maps of the same keys only. The least
length counts if the first one is known. -/
def Elements.meet (tb : TypeTable) (a b : Elements) : Option Elements :=
  let sameKey := match a.key, b.key with
    | none, none => true
    | some k, some l => tb.same k l
    | _, _ => false
  if sameKey && tb.same a.type b.type then
    some { a with
      length := match a.length, b.length with
        | some m, some n => some (min m n)
        | l, _ => l
      isVariable := a.isVariable && b.isVariable }
  else none

/-- The elements of all types that a type stands for. -/
def commonElements (tb : TypeTable) (x : Operand) : Option Elements := do
  match ← (tb.unders x.type).mapM (elementsOf tb x) with
  | [] => none
  | a :: rest => rest.foldlM (Elements.meet tb) a

/-- A type with arguments, or an element of a value. -/
def indexed (r : TypingRules) (env : Env) (e : Expr) (x : Operand) (args : List Expr) :
    Check Operand := do
  match x.mode with
  | .typeExpr | .genericType _ => return ⟨.typeExpr, ← varType r env e, e⟩
  | _ =>
    let x ← singleValue x
    match commonElements (← table) x, args with
    | some a, [i] =>
      match a.key with
      | some key =>
        let _ ← assign env (← expr r env i) (some key)
        return ⟨.mapIndex, a.type, e⟩
      | none =>
        let _ ← index r env a.length i
        return ⟨if a.isVariable then .variable else .value, a.type, e⟩
    | some _, _ => throw (.badCount e.pos)
    | none, _ => throw (.badOperand e.pos)

/-! ## Slices -/

/-- The length of what is sliced, where it is known, and the type of the slice. -/
def sliceable (x : Operand) (full : Bool) : Check (Option Nat × Ty) := do
  let tb ← table
  match tb.coreText x.type with
  | some (.basic b) =>
    require (b.isString && !full) (.badOperand x.pos)
    return ((x.const?.bind Const.str?).map List.length, x.type.settled)
  | some (.array n t) =>
    require x.isAddressable (.badOperand x.pos)
    return (some n, .slice t)
  | some (.pointer p) =>
    match tb.under p with
    | .array n t => return (some n, .slice t)
    | _ => throw (.badOperand x.pos)
  | some (.slice _) => return (none, x.type)
  | _ => throw (.badOperand x.pos)

/-- No known bound but 0 is greater than one that follows it. -/
def inOrder : List (Option Nat) → Bool
  | [] => true
  | none :: rest => inOrder rest
  | some m :: rest => rest.all (fun b => b.all (m ≤ ·)) && inOrder rest

/-- A part of a text, an array or another slice. -/
def sliceExpr (r : TypingRules) (env : Env) (e x low high most : Expr) (full : Bool) :
    Check Operand := do
  let (length, type) ← sliceable (← expr r env x) full
  require (!full || (!high.isAbsent && !most.isAbsent)) (.badOperand e.pos)
  let bound := fun (dflt : Option Nat) (i : Expr) =>
    if i.isAbsent then pure dflt else index r env (length.map (· + 1)) i
  let bounds := [← bound (some 0) low, ← bound length high, ← bound length most]
  require (inOrder bounds) (.badOperand e.pos)
  return result e type

end CaseCover.Check
