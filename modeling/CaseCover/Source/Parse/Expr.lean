import CaseCover.Source.Parse.Type

/-!
# Reading expressions

Operands with their selections, calls and indexes, unary operators, and binary operators by their
strength. In the header of a statement a brace after a name opens the body and no composite
literal.
-/

namespace CaseCover.Parse

/-- Statements up to the end of a block or clause. -/
def stmtList (r : Rules) : Parse (List Stmt) :=
  many (do
    let k ← kind
    return !(k == .keyword .kwCase || k == .keyword .kwDefault || k == .op .rbrace || k == .eof))
    r.stmt

/-- A block in braces. -/
def block (r : Rules) : Parse Stmt := do
  let start ← expectOp .lbrace
  let body ← stmtList r
  let close ← expectOp .rbrace
  return .block start body close

/-- A function type, or a function literal when a body follows. -/
def funcTypeOrLiteral (r : Rules) : Parse Expr := do
  let t ← funcType r
  if ← atOp .lbrace then return .function t (← nested (block r))
  return t

/-- An operand. -/
def operand (r : Rules) : Parse Expr := do
  let t ← peek
  match t.kind with
  | .ident => return .ident (← ident)
  | .literal k =>
    advance
    return .literal t.pos k t.text
  | .op .lparen =>
    advance
    let x ← nested (expr r)
    let close ← expectOp .rparen
    return .paren t.pos x close
  | .keyword .kwFunc => funcTypeOrLiteral r
  | _ => type r

/-- The type of a type assertion in parentheses; the word `type` stands for the type of a type
switch. -/
def assertion (r : Rules) (x : Expr) : Parse Expr := do
  let _ ← expectOp .lparen
  let t ←
    if ← atKeyword .kwType then do
      advance
      pure Expr.absent
    else type r
  let close ← expectOp .rparen
  return .assertion x t close

/-- An index of a slice expression, if there is one before the next colon or bracket. -/
def sliceIndex (r : Rules) : Parse Expr := do
  let k ← kind
  if k == .op .colon || k == .op .rbrack || k == .eof then pure Expr.absent else expr r

/-- An index expression, a slice expression or type arguments after an expression. -/
def indexOrSlice (r : Rules) (x : Expr) : Parse Expr := do
  let _ ← expectOp .lbrack
  if ← atOp .rbrack then unexpected
  modify fun s => { s with level := s.level + 1 }
  let first ← if ← atOp .colon then pure Expr.absent else expr r
  let finish : Parse Pos := do
    modify fun s => { s with level := s.level - 1 }
    expectOp .rbrack
  if ← atOp .colon then
    advance
    let high ← sliceIndex r
    if ← atOp .colon then
      advance
      let max ← sliceIndex r
      let close ← finish
      if high.isAbsent || max.isAbsent then throw (.unexpected close)
      return .slice x first high max true close
    let close ← finish
    return .slice x first high .absent false close
  let more ← repeated [] fun acc => do
    if ← atOp .comma then
      advance
      if (← atOp .rbrack) || (← atEnd) then return .more acc
      return .more ((← type r) :: acc)
    return .done acc
  let close ← finish
  return .index x (first :: more.reverse) close

/-- The arguments of a call or conversion. -/
def callArgs (r : Rules) (fn : Expr) : Parse Expr := do
  let _ ← expectOp .lparen
  let (args, dots) ← nested do
    repeated (([] : List Expr), 0) fun (acc, dots) => do
      if (← atOp .rparen) || (← atEnd) || dots ≠ 0 then return .done (acc, dots)
      let acc := (← expr r) :: acc
      let dots ← if ← atOp .ellipsis then expectOp .ellipsis else pure 0
      if ← atComma .rparen then
        advance
        return .more (acc, dots)
      return .done (acc, dots)
  let close ← expectOp .rparen
  return .call fn args.reverse dots close

/-- A value of a composite literal; a nested literal may leave its type out. -/
def elementValue (r : Rules) : Parse Expr := do
  if ← atOp .lbrace then r.literalValue .absent else expr r

/-- An element of a composite literal, possibly with a key. -/
def element (r : Rules) : Parse Expr := do
  let x ← elementValue r
  if ← atOp .colon then
    advance
    return .pair x (← elementValue r)
  return x

/-- The braces of a composite literal of the given type. -/
def literalValueRule (r : Rules) (t : Expr) : Parse Expr := do
  let start ← expectOp .lbrace
  let elements ← nested (itemsUntil .rbrace (element r))
  let close ← expectOp .rbrace
  return .composite t start elements close

/-- Whether an opening brace after an expression starts a composite literal of that type, given
the nesting level. -/
def opensLiteral (level : Int) : Expr → Bool
  | .bad _ _ => 0 ≤ level
  | .ident _ => 0 ≤ level
  | .selector _ _ => 0 ≤ level
  | .index _ _ _ => 0 ≤ level
  | .arrayType _ _ _ => true
  | .structType _ _ _ => true
  | .mapType _ _ _ => true
  | _ => false

/-- The expression stands in parentheses. -/
def isParen : Expr → Bool
  | .paren _ _ _ => true
  | _ => false

/-- An operand, which may have been read, with everything attached to it. -/
def primary (r : Rules) (first : Option Expr) : Parse Expr := do
  let x ← match first with
    | some x => pure x
    | none => operand r
  repeated x fun x => do
    match ← kind with
    | .op .period =>
      advance
      if ← atIdent then return .more (.selector x (← ident))
      if ← atOp .lparen then return .more (← assertion r x)
      unexpected
    | .op .lbrack => return .more (← indexOrSlice r x)
    | .op .lparen => return .more (← callArgs r x)
    | .op .lbrace =>
      if opensLiteral (← get).level x.unparen then
        if isParen x then unexpected
        return .more (← r.literalValue x)
      return .done x
    | _ => return .done x

/-- A channel type after a receive arrow at `start` becomes a receive-only type; the arrows of
nested send-only types move one type inward. -/
def receiveType (start : Pos) : Expr → Option Expr
  | .chanType _ .both value => some (.chanType start .receive value)
  | .chanType _ .send value =>
    match value with
    | .chanType pos dir inner =>
      (receiveType pos (.chanType pos dir inner)).map (.chanType start .receive ·)
    | _ => none
  | _ => none

/-- An expression with unary operators in front. -/
def unaryRule (r : Rules) : Parse Expr := do
  let t ← peek
  match t.kind with
  | .op .mul =>
    advance
    return .star t.pos (← r.unary)
  | .op .arrow =>
    advance
    let x ← r.unary
    match x with
    | .chanType _ _ _ =>
      match receiveType t.pos x with
      | some c => return c
      | none => throw (.unexpected t.pos)
    | x => return .unary t.pos .arrow x
  | .op o =>
    if o == .add || o == .sub || o == .not || o == .xor || o == .and || o == .tilde then
      advance
      return .unary t.pos o (← r.unary)
    primary r none
  | _ => primary r none

/-- An expression of binary operators of at least the given strength; its first operand may have
been read. -/
def binaryRule (r : Rules) (first : Option Expr) (strength : Nat) : Parse Expr := do
  let x ← match first with
    | some x => pure x
    | none => unaryRule r
  repeated x fun x => do
    match ← kind with
    | .op o =>
      if o.precedence < max strength 1 then return .done x
      advance
      let y ← r.binary none (o.precedence + 1)
      return .more (.binary x o y)
    | _ => return .done x

end CaseCover.Parse
