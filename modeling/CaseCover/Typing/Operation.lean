import CaseCover.Typing.Untyped

/-!
# Operators

Arithmetic, comparisons, shifts and conversions on checked operands. Operations on constants are
computed; a typed result must lie in its type.
-/

namespace CaseCover.Check

/-- The result of an operation on constants must fit its type. -/
def boundedConstant (e : Expr) (type : Ty) (c : Const) : Check Operand := do
  match (← table).basic? type with
  | some b =>
    if b.isUntyped then
      require (!c.overflows) (.overflow e.pos)
      return ⟨.constant c, type, e⟩
    match c.represent b with
    | some v => return ⟨.constant v, type, e⟩
    | none => throw (.overflow e.pos)
  | none => return ⟨.constant c, type, e⟩

/-- The types for which a binary operator exists. -/
def operatorTypes : Op → Basic → Bool
  | .add => fun b => b.isNumeric || b.isString
  | .sub | .mul | .quo => Basic.isNumeric
  | .rem | .and | .or | .xor | .andNot => Basic.isInteger
  | .land | .lor => Basic.isBoolean
  | _ => fun _ => false

/-- A binary operator on constants; `whole` for the division of integers. -/
def constantBinary (op : Op) (whole : Bool) (x y : Const) : Option Const :=
  match op with
  | .add => Const.arith .add x y
  | .sub => Const.arith .sub x y
  | .mul => Const.arith .mul x y
  | .quo => if whole then Const.intDiv x y else Const.arith .div x y
  | .rem => Const.bitwise .rem x y
  | .and => Const.bitwise .and x y
  | .or => Const.bitwise .or x y
  | .xor => Const.bitwise .xor x y
  | .andNot => Const.bitwise .andNot x y
  | .land => x.bool?.bind fun a => y.bool?.map fun b => .bool (a && b)
  | .lor => x.bool?.bind fun a => y.bool?.map fun b => .bool (a || b)
  | _ => none

/-- The relation of a comparison operator. -/
def relation : Op → Const.Relation
  | .neq => .ne
  | .lss => .lt
  | .leq => .le
  | .gtr => .gt
  | .geq => .ge
  | _ => .eq

/-- An untyped operand may take the type of the other one. -/
def mayConvert (tb : TypeTable) (x y : Operand) : Bool :=
  if !x.type.isUntyped && !y.type.isUntyped then false
  else if tb.isInterface x.type || tb.isInterface y.type then true
  else if tb.all Basic.isBoolean x.type != tb.all Basic.isBoolean y.type then false
  else if tb.all Basic.isString x.type != tb.all Basic.isString y.type then false
  else if x.isNil then tb.hasNil y.type
  else if y.isNil then tb.hasNil x.type
  else !tb.isPointer x.type && !tb.isPointer y.type

/-- Brings two operands to one type if one of them is untyped. -/
def matchTypes (x y : Operand) : Check (Operand × Operand) := do
  if mayConvert (← table) x y then
    let x ← convertUntyped x y.type
    let y ← convertUntyped y x.type
    return (x, y)
  return (x, y)

/-- Compares two operands. -/
def comparison (env : Env) (e : Expr) (x y : Operand) (op : Op) : Check Operand := do
  let tb ← table
  require ((← isAssignable env x y.type) || (← isAssignable env y x.type)) (.mismatch e.pos)
  match op with
  | .eql | .neq =>
    if x.isNil || y.isNil then
      require (tb.hasNil (if x.isNil then y.type else x.type)) (.badOperand e.pos)
    else
      require (tb.isComparable x.type && tb.isComparable y.type) (.badOperand e.pos)
  | _ =>
    require (tb.all Basic.isOrdered x.type && tb.all Basic.isOrdered y.type) (.badOperand e.pos)
  match x.const?, y.const? with
  | some a, some b =>
    match Const.compare (relation op) a b with
    | some v => return ⟨.constant (.bool v), .basic .untypedBool, e⟩
    | none => throw (.badOperand e.pos)
  | _, _ =>
    settle x.type.settled true x.expr
    settle y.type.settled true y.expr
    return ⟨.value, .basic .untypedBool, e⟩

/-- The greatest amount by which constants are shifted. -/
def shiftLimit : Nat := 1074

/-- The amount of a shift: an integer, or a constant that is not negative. An untyped constant must
be one that a word can hold. -/
def shiftAmount (env : Env) (y : Operand) : Check Operand := do
  let tb ← table
  match y.const? with
  | some c =>
    require (c.toInt?.all (0 ≤ ·)) (.badOperand y.pos)
    if y.type.isUntyped then require (c.represent .uint).isSome (.badOperand y.pos)
    return y
  | none =>
    if tb.all Basic.isInteger y.type then
      if !tb.all Basic.isUnsigned y.type then since env 13 y.pos
      return y
    require y.type.isUntyped (.badOperand y.pos)
    convertUntyped y (.basic .uint)

/-- Shifts an operand by another one. -/
def shift (env : Env) (e : Expr) (x y : Operand) (op : Op) : Check Operand := do
  let tb ← table
  let whole := x.const?.bind Const.toInt?
  require (tb.all Basic.isInteger x.type || (x.type.isUntyped && whole.isSome)) (.badOperand x.pos)
  let y ← shiftAmount env y
  match whole, y.const? with
  | some v, some c =>
    let s := c.toInt?.getD (shiftLimit + 1)
    require (s ≤ shiftLimit) (.badOperand y.pos)
    let type := if tb.is Basic.isInteger x.type then x.type else .basic .untypedInt
    let shifted := if op = .shl then Const.shiftLeft (.int v) s.toNat else Const.shiftRight (.int v) s.toNat
    match shifted with
    | some c => boundedConstant e type c
    | none => throw (.badOperand e.pos)
  | _, _ =>
    if x.const?.isSome && x.type.isUntyped then
      match ← untypedFact? x.expr with
      | some f => record x.expr f.type f.value true
      | none => pure ()
      return ⟨.value, x.type, e⟩
    require (tb.all Basic.isInteger x.type) (.badOperand x.pos)
    return ⟨.value, x.type, e⟩

/-- The square of a divisor's absolute value is too small to be told from zero. -/
def vanishes (c : Const) : Bool :=
  match c.parts? with
  | some (re, im) =>
    let gone := fun (r : Real) => ((r.mul r).map Real.isZero).getD false
    gone re && gone im
  | none => false

/-- A binary operator on two operands. -/
def binary (env : Env) (e : Expr) (x y : Operand) (op : Op) : Check Operand := do
  if isShift op then return ← shift env e x y op
  let (x, y) ← matchTypes x y
  if isComparison op then return ← comparison env e x y op
  let tb ← table
  require (tb.same x.type y.type) (.mismatch e.pos)
  require (tb.all (operatorTypes op) x.type) (.badOperand e.pos)
  if op = .quo || op = .rem then
    match y.const? with
    | some d =>
      let isConstant := x.const?.isSome
      require (!(d.isZero && (isConstant || tb.all Basic.isInteger x.type))) (.divisionByZero e.pos)
      require (!(isConstant && tb.is Basic.isComplex x.type && vanishes d)) (.divisionByZero e.pos)
    | none => pure ()
  match x.const?, y.const? with
  | some a, some b =>
    match constantBinary op (tb.is Basic.isInteger x.type) a b with
    | some c => boundedConstant e x.type c
    | none => throw (.badOperand e.pos)
  | _, _ => return ⟨.value, x.type, e⟩

/-- A sign, complement or negation of an operand. -/
def unary (e : Expr) (op : Op) (x : Operand) : Check Operand := do
  let tb ← table
  let fits : Basic → Bool :=
    match op with
    | .add | .sub => Basic.isNumeric
    | .xor => Basic.isInteger
    | .not => Basic.isBoolean
    | _ => fun _ => false
  require (tb.all fits x.type) (.badOperand e.pos)
  match x.const? with
  | none => return ⟨.value, x.type, e⟩
  | some c =>
    let bits := (tb.basic? x.type).bind fun b => if b.isUnsigned then some b.bits else none
    let result :=
      match op with
      | .sub => Const.neg c
      | .xor => Const.complement bits c
      | .not => c.bool?.map fun b => .bool (!b)
      | _ => some c
    match result with
    | some v => boundedConstant e x.type v
    | none => throw (.badOperand e.pos)

/-! ## Conversions -/

/-- The text of one character, or of the replacement character when there is none. -/
def characterText (c : Const) : Text :=
  match c.toInt? with
  | some (.ofNat n) => Text.ofCode (if n ≤ 0x10FFFF then n else 0xFFFD)
  | _ => Text.ofCode 0xFFFD

/-- A constant as a value of a basic type, if it can be converted to it: an integer also stands for a
character. -/
def convertConstant (tb : TypeTable) (type : Ty) (c : Const) (b : Basic) : Option Const :=
  match c.represent b with
  | some v => some v
  | none =>
    if tb.is Basic.isInteger type && b.isString then some (.str (characterText c)) else none

/-- The value of a constant in a type parameter or in a type that has no constants. -/
def convertsPlainly (env : Env) (tb : TypeTable) (x : Operand) (t : Ty) : Bool :=
  tb.convertible env.release (fun v u => assignableTo tb env.release { x with type := v } u) x.type t

/-- Converts an operand to a type. -/
def convert (env : Env) (e : Expr) (x : Operand) (t : Ty) : Check Operand := do
  let tb ← table
  let isConst := tb.isConstantType t
  let mode ← match x.const?, tb.basic? t with
    | some c, some b =>
      if isConst then
        match convertConstant tb x.type c b with
        | some v => pure (Mode.constant v)
        | none => throw (.mismatch e.pos)
      else
        require (convertsPlainly env tb x t) (.mismatch e.pos)
        pure .value
    | some c, none =>
      let ok :=
        if t.isParam then
          tb.underAll t fun u =>
            (tb.is Basic.isString x.type && tb.isCharacters u) ||
              (match u with
               | .basic b => (convertConstant tb x.type c b).isSome
               | _ => false)
        else convertsPlainly env tb x t
      require ok (.mismatch e.pos)
      pure .value
    | none, _ => do
      require (convertsPlainly env tb x t) (.mismatch e.pos)
      pure .value
  if x.type.isUntyped then
    let final :=
      if tb.isInterface t || (x.const?.isSome && !isConst) || x.isNil then x.type.settled
      else if x.const?.isSome && tb.is Basic.isInteger x.type && tb.all Basic.isString t then x.type
      else t
    settle final true x.expr
  return ⟨mode, t, e⟩

end CaseCover.Check
