import CaseCover.Source.Parse.Expr

/-!
# Reading statements

Statements, and the groups of constants, types and variables that may also stand at the top of a
file.
-/

namespace CaseCover.Parse

/-- What else a simple statement may be besides an ordinary one. -/
inductive SimpleMode where
  | basic
  | labels
  | ranges
deriving DecidableEq

/-- A simple statement, or the clause of a loop over a range. -/
inductive Simple where
  | stmt (s : Stmt)
  | range (lhs : List Expr) (op : Op) (subject : Expr)

/-- The operators that assign. -/
def isAssignOp (o : Op) : Bool := o == .assign || o == .define || o.compound?.isSome

/-- A simple statement. -/
def simple (r : Rules) (mode : SimpleMode) : Parse Simple := do
  let xs ← exprList r
  let t ← peek
  let assignOp : Option Op :=
    match t.kind with
    | .op o => if isAssignOp o then some o else none
    | _ => none
  match assignOp with
  | some o =>
    advance
    if mode = .ranges && (o == .define || o == .assign) && (← atKeyword .kwRange) then
      advance
      return .range xs o (← expr r)
    return .stmt (.assign xs o (← exprList r))
  | none =>
    match xs with
    | [x] =>
      match t.kind with
      | .op .colon =>
        advance
        match x with
        | .ident id =>
          if mode = .labels then return .stmt (.labeled id (← r.stmt))
          throw (.unexpected t.pos)
        | _ => throw (.unexpected t.pos)
      | .op .arrow =>
        advance
        return .stmt (.send x (← expr r))
      | .op .inc =>
        advance
        return .stmt (.incDec x t.pos .inc)
      | .op .dec =>
        advance
        return .stmt (.incDec x t.pos .dec)
      | _ => return .stmt (.expr x)
    | _ => unexpected

/-- A simple statement where no range clause may stand. -/
def simpleStmt (r : Rules) : Parse Stmt := do
  match ← simple r .basic with
  | .stmt s => pure s
  | .range _ _ _ => unexpected

/-- The expression of a statement that must be one. -/
def asExpr : Stmt → Parse Expr
  | .absent => pure .absent
  | .expr x => pure x
  | _ => unexpected

/-! ## Declarations in groups -/

/-- The name, and after it the type, of a type parameter that an array length may also be: an
expression that splits into a name and a type. `force` accepts a type that reads like an
expression. -/
def isTypeElem : Expr → Bool
  | .arrayType _ _ _ => true
  | .structType _ _ _ => true
  | .funcType _ _ _ _ _ => true
  | .interfaceType _ _ _ => true
  | .mapType _ _ _ => true
  | .chanType _ _ _ => true
  | .binary x _ y => isTypeElem x || isTypeElem y
  | .unary _ op _ => op == .tilde
  | .paren _ inner _ => isTypeElem inner
  | _ => false

/-- Splits an expression into the name and the type of a type parameter. -/
def splitTypeParam (force : Bool) : Expr → Option (Ident × Option Expr)
  | .ident id => some (id, none)
  | .binary x op y =>
    if op == .mul then
      match x with
      | .ident id => if force || isTypeElem y then some (id, some (.star y.pos y)) else none
      | _ => none
    else if op == .or then
      match splitTypeParam (force || isTypeElem y) x with
      | some (id, some lhs) => some (id, some (.binary lhs .or y))
      | _ => none
    else none
  | .call (.ident id) [arg] dots _ =>
    if dots = 0 && (force || isTypeElem arg) then some (id, some arg) else none
  | _ => none

/-- The type of a type declaration with parameters, of which the first was read in part. -/
def genericType (r : Rules) (name : Ident) (first : Ident) (t : Option Expr) : Parse Spec := do
  let params ← paramList r (some first) t .rbrack
  let _ ← expectOp .rbrack
  let isAlias ← atOp .assign
  if isAlias then advance
  return .type name params isAlias (← type r)

/-- An entry of a group of types. -/
def typeSpec (r : Rules) : Parse Spec := do
  let name ← ident
  let spec ←
    if ← atOp .lbrack then
      let start ← expectOp .lbrack
      if ← atIdent then
        let id ← ident
        let x ←
          if ← atOp .lbrack then pure (Expr.ident id)
          else nested do r.binary (some (← primary r (some (.ident id)))) 1
        let comma ← atOp .comma
        let closes ← atOp .rbrack
        match splitTypeParam comma x with
        | some (first, t) =>
          if t.isSome || !closes then genericType r name first t
          else return .type name [] false (← arrayType r start (some x))
        | none => return .type name [] false (← arrayType r start (some x))
      else pure (.type name [] false (← arrayType r start none))
    else
      let isAlias ← atOp .assign
      if isAlias then advance
      pure (.type name [] isAlias (← type r))
  pure spec

/-- An entry of a group of constants. -/
def constSpec (r : Rules) : Parse Spec := do
  let names ← commaSeparated ident
  let k ← kind
  if k == .eof || k == .op .semicolon || k == .op .rparen then
    return .values names .absent []
  let t := (← r.type?).getD .absent
  if ← atOp .assign then
    advance
    return .values names t (← exprList r)
  return .values names t []

/-- An entry of a group of variables. -/
def varSpec (r : Rules) : Parse Spec := do
  let names ← commaSeparated ident
  let t ← if ← atOp .assign then pure Expr.absent else type r
  if ← atOp .assign then
    advance
    return .values names t (← exprList r)
  return .values names t []

/-- An entry of a group of imports. -/
def importSpec : Parse Spec := do
  let name ←
    if ← atIdent then pure (some (← ident))
    else if ← atOp .period then do
      let p ← expectOp .period
      pure (some ⟨p, utf8 "."⟩)
    else pure none
  let t ← peek
  if t.kind == .literal .string then
    advance
    return .importing name t.pos t.text
  unexpected

/-- A declaration: one entry, or several in parentheses. Gives its position, its kind, the entries
and the closing parenthesis. -/
def group (keyword : Keyword) (kind : DeclKind) (spec : Parse Spec) :
    Parse (Pos × DeclKind × List Spec × Pos) := do
  let start ← expectKeyword keyword
  let entry := do
    let s ← spec
    endStatement
    return s
  if ← atOp .lparen then
    advance
    let specs ← many (do return !((← atOp .rparen) || (← atEnd))) entry
    let close ← expectOp .rparen
    endStatement
    return (start, kind, specs, close)
  return (start, kind, [← entry], 0)

/-- A declaration of constants, types or variables, if the next token starts one. -/
def groupDecl (r : Rules) : Parse (Option (Pos × DeclKind × List Spec × Pos)) := do
  match ← kind with
  | .keyword .kwConst => return some (← group .kwConst .consts (constSpec r))
  | .keyword .kwType => return some (← group .kwType .types (typeSpec r))
  | .keyword .kwVar => return some (← group .kwVar .vars (varSpec r))
  | _ => return none

/-! ## Statements -/

/-- The call of a `go` or `defer` statement. -/
def plainCall (r : Rules) : Parse Expr := do
  let x ← expr r
  match x with
  | .call _ _ _ _ => pure x
  | _ => unexpected

/-- The header of an if statement: its init statement and its condition. -/
def ifHeader (r : Rules) : Parse (Stmt × Expr) := do
  if ← atOp .lbrace then unexpected
  inHeader do
    let init ← if ← atOp .semicolon then pure Stmt.absent else simpleStmt r
    if ← atOp .lbrace then return (.absent, ← asExpr init)
    let _ ← expectOp .semicolon
    if ← atOp .lbrace then unexpected
    return (init, ← asExpr (← simpleStmt r))

/-- An if statement. -/
def ifStmt (r : Rules) : Parse Stmt := do
  let start ← expectKeyword .kwIf
  let (init, cond) ← ifHeader r
  let body ← block r
  if ← atKeyword .kwElse then
    advance
    if ← atKeyword .kwIf then return .ifChain start init cond body (← r.stmt)
    let other ← block r
    endStatement
    return .ifChain start init cond body other
  endStatement
  return .ifChain start init cond body .absent

/-- A clause of a switch statement. -/
def caseClause (r : Rules) : Parse Stmt := do
  let start ← pos
  let exprs ←
    if ← atKeyword .kwCase then do
      advance
      pure (some (← exprList r))
    else do
      let _ ← expectKeyword .kwDefault
      pure none
  let colon ← expectOp .colon
  return .caseClause start exprs.isNone (exprs.getD []) colon (← stmtList r)

/-- The next token starts a clause. -/
def atClause : Parse Bool := do return (← atKeyword .kwCase) || (← atKeyword .kwDefault)

/-- The expression asks for the type of a type switch. -/
def isTypeGuard : Expr → Bool
  | .assertion _ .absent _ => true
  | _ => false

/-- The statement is the guard of a type switch; an assignment must declare its variable. -/
def typeSwitchGuard : Stmt → Parse Bool
  | .expr x => pure (isTypeGuard x)
  | .assign [_] op [y] =>
    if isTypeGuard y then
      if op == .define then pure true else if op == .assign then unexpected else pure false
    else pure false
  | _ => pure false

/-- A switch statement or a type switch. -/
def switchStmt (r : Rules) : Parse Stmt := do
  let start ← expectKeyword .kwSwitch
  let (init, guard) ←
    if ← atOp .lbrace then pure (Stmt.absent, Stmt.absent)
    else inHeader do
      let first ← if ← atOp .semicolon then pure Stmt.absent else simpleStmt r
      if ← atOp .semicolon then
        advance
        if ← atOp .lbrace then return (first, Stmt.absent)
        return (first, ← simpleStmt r)
      return (Stmt.absent, first)
  let isTypeSwitch ← typeSwitchGuard guard
  let opening ← expectOp .lbrace
  let clauses ← many atClause (caseClause r)
  let close ← expectOp .rbrace
  endStatement
  let body := Stmt.block opening clauses close
  if isTypeSwitch then return .typeSwitch start init guard body
  return .switchOn start init (← asExpr guard) body

/-- A clause of a select statement. -/
def commClause (r : Rules) : Parse Stmt := do
  let start ← pos
  let comm ←
    if ← atKeyword .kwCase then do
      advance
      let lhs ← exprList r
      if ← atOp .arrow then
        advance
        match lhs with
        | [x] => pure (some (Stmt.send x (← expr r)))
        | _ => unexpected
      else if (← atOp .assign) || (← atOp .define) then
        if 2 < lhs.length then unexpected
        let op : Op := if ← atOp .assign then .assign else .define
        advance
        pure (some (Stmt.assign lhs op [← expr r]))
      else
        match lhs with
        | [x] => pure (some (Stmt.expr x))
        | _ => unexpected
    else do
      let _ ← expectKeyword .kwDefault
      pure none
  let colon ← expectOp .colon
  return .commClause start comm.isNone (comm.getD .absent) colon (← stmtList r)

/-- A select statement. -/
def selectStmt (r : Rules) : Parse Stmt := do
  let start ← expectKeyword .kwSelect
  let opening ← expectOp .lbrace
  let clauses ← many atClause (commClause r)
  let close ← expectOp .rbrace
  endStatement
  return .selectOn start (.block opening clauses close)

/-- The header of a loop. -/
inductive LoopHeader where
  | range (lhs : List Expr) (op : Option Op) (subject : Expr)
  | plain (init : Stmt) (cond : Expr) (post : Stmt)

/-- The header of a loop after the keyword. -/
def loopHeader (r : Rules) : Parse LoopHeader := do
  if ← atOp .lbrace then return .plain .absent .absent .absent
  inHeader do
    if ← atKeyword .kwRange then
      advance
      return .range [] none (← expr r)
    let first ← if ← atOp .semicolon then pure (Simple.stmt .absent) else simple r .ranges
    match first with
    | .range lhs op subject => return .range lhs (some op) subject
    | .stmt init =>
      if ← atOp .semicolon then
        advance
        if ← atOp .lbrace then unexpected
        let cond ← if ← atOp .semicolon then pure Stmt.absent else simpleStmt r
        endStatement
        let post ← if ← atOp .lbrace then pure Stmt.absent else simpleStmt r
        return .plain init (← asExpr cond) post
      return .plain .absent (← asExpr init) .absent

/-- A loop. -/
def forStmt (r : Rules) : Parse Stmt := do
  let start ← expectKeyword .kwFor
  let header ← loopHeader r
  let body ← block r
  endStatement
  match header with
  | .plain init cond post => return .loop start init cond post body
  | .range lhs op subject =>
    match lhs with
    | [] => return .iterate start .absent .absent op subject body
    | [k] => return .iterate start k .absent op subject body
    | [k, v] => return .iterate start k v op subject body
    | _ => unexpected

/-- A statement that transfers control. -/
def branchStmt (keyword : Keyword) (kind : BranchKind) (width : Nat) : Parse Stmt := do
  let start ← expectKeyword keyword
  let label ←
    if kind ≠ .fall && (← atIdent) then do pure (some (← ident))
    else pure none
  endStatement
  return .branch start kind (start + width) label

/-- A token that may start a simple statement. -/
def startsSimple : TokenKind → Bool
  | .ident => true
  | .literal _ => true
  | .keyword k =>
    k == .kwFunc || k == .kwStruct || k == .kwMap || k == .kwChan || k == .kwInterface
  | .op o =>
    o == .lparen || o == .lbrack || o == .add || o == .sub || o == .mul || o == .and ||
      o == .xor || o == .arrow || o == .not
  | .eof => false

/-- A statement. -/
def stmtRule (r : Rules) : Parse Stmt := do
  match ← groupDecl r with
  | some (start, kind, specs, close) => return .decl start kind specs close
  | none =>
    let t ← peek
    if startsSimple t.kind then
      match ← simple r .labels with
      | .stmt (.labeled label body) => return .labeled label body
      | .stmt s =>
        endStatement
        return s
      | .range _ _ _ => unexpected
    else
      match t.kind with
      | .keyword .kwGo =>
        advance
        let call ← plainCall r
        endStatement
        return .spawn t.pos call
      | .keyword .kwDefer =>
        advance
        let call ← plainCall r
        endStatement
        return .postpone t.pos call
      | .keyword .kwReturn =>
        advance
        let k ← kind
        let results ←
          if k == .op .semicolon || k == .op .rbrace then pure [] else exprList r
        endStatement
        return .giveBack t.pos results
      | .keyword .kwBreak => branchStmt .kwBreak .brk 5
      | .keyword .kwContinue => branchStmt .kwContinue .cont 8
      | .keyword .kwGoto => branchStmt .kwGoto .goto 4
      | .keyword .kwFallthrough => branchStmt .kwFallthrough .fall 11
      | .op .lbrace =>
        let b ← block r
        endStatement
        return b
      | .keyword .kwIf => ifStmt r
      | .keyword .kwSwitch => switchStmt r
      | .keyword .kwSelect => selectStmt r
      | .keyword .kwFor => forStmt r
      | .op .semicolon =>
        advance
        return .empty t.pos (t.text == [0x0A])
      | .op .rbrace => return .empty t.pos true
      | _ => unexpected

end CaseCover.Parse
