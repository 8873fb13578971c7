import CaseCover.Typing.Control
import CaseCover.Typing.Declaration

/-!
# Statements

Statements are checked one after the other; a declaration makes its names known to those that
follow in the same block.
-/

namespace CaseCover.Check

/-! ## Assignments -/

/-- The type of a variable that is assigned to; the blank name takes any. Assigning to a variable
does not use it. -/
def assignTarget (r : TypingRules) (env : Env) (e : Expr) : Check (Option Ty) := do
  let general : Check (Option Ty) := do
    let x ← expr r env e
    match x.mode with
    | .variable | .mapIndex => return some x.type
    | _ => throw (.notAssignable e.pos)
  match e.unparen with
  | .ident id =>
    if id.name == blank then return none
    match env.local? id.name with
    | some (.variable t _) => return some t
    | _ => general
  | _ => general

/-- A declaration by assignment: at least one name is new in the block. -/
def shortDecl (r : TypingRules) (env : Env) (pos : Pos) (lhs rhs : List Expr) : Check Env := do
  let ids ← lhs.mapM fun e => do
    match e with
    | .ident id => return id
    | e => throw (.badDecl e.pos)
  distinct ids
  let targets ← ids.mapM fun id => do
    match env.inBlock? id.name with
    | some (.variable t _) => return some t
    | some _ => throw (.notAssignable id.pos)
    | none => return none
  let types ← initVariables r env pos targets true rhs
  let fresh := (ids.zip types).filter fun (id, _) => id.name != blank && (env.inBlock? id.name).isNone
  require (!fresh.isEmpty) (.badDecl pos)
  declareVariables env fresh

/-- An assignment to variables, one value for each or one expression for all of them. -/
def plainAssignment (r : TypingRules) (env : Env) (pos : Pos) (lhs rhs : List Expr) : Check Unit := do
  if rhs.length == lhs.length && !(rhs.length == 1 && rhs.all isCall) then
    for (x, e) in lhs.zip rhs do
      let target ← assignTarget r env x
      let _ ← assign env (← exprTo r env target e) target
  else
    match rhs with
    | [e] =>
      let xs ← multiExpr r env (lhs.length == 2) e
      require (xs.length == lhs.length) (.badCount pos)
      for (y, x) in lhs.zip xs do
        let _ ← assign env x (← assignTarget r env y)
    | _ => throw (.badCount pos)

/-- An assignment. -/
def assignment (r : TypingRules) (env : Env) (pos : Pos) (lhs : List Expr) (op : Op)
    (rhs : List Expr) : Check Env := do
  match op.compound? with
  | some op =>
    match lhs, rhs with
    | [x], [y] =>
      let v ← binary env x (← expr r env x) (← expr r env y) op
      let target ← assignTarget r env x
      let _ ← assign env v target
      return env
    | _, _ => throw (.badCount pos)
  | none =>
    if op = .define then shortDecl r env pos lhs rhs
    else
      plainAssignment r env pos lhs rhs
      return env

/-! ## Simple statements -/

/-- An expression that stands as a statement: a call or a received value. -/
def exprStmt (r : TypingRules) (env : Env) (e : Expr) : Check Unit := do
  let (_, kind) ← r.expr env .plain e
  require (kind = .action) (.notValue e.pos)

/-- A call that runs on its own or at the end of the function. -/
def suspendedCall (r : TypingRules) (env : Env) (e : Expr) : Check Unit := do
  match e with
  | .call .. =>
    let (_, kind) ← r.expr env .plain e
    require (kind = .action) (.badCall e.pos)
  | e => throw (.badCall e.pos)

/-- A return statement. Without values, named results are given back, if their names still stand for
them. -/
def returnStmt (r : TypingRules) (env : Env) (pos : Pos) (es : List Expr) : Check Unit := do
  if es.isEmpty && !env.resultNames.isEmpty then
    for (name, serial) in env.resultNames do
      if name != blank then
        match env.local? name with
        | some (.variable _ n) => require (n == serial) (.badBranch pos)
        | _ => throw (.badBranch pos)
  else if env.results.isEmpty then require es.isEmpty (.badCount pos)
  else
    let _ ← initVariables r env pos (env.results.map some) false es

/-- A value is sent into a channel. -/
def sendStmt (r : TypingRules) (env : Env) (chan value : Expr) : Check Unit := do
  let c ← expr r env chan
  let v ← expr r env value
  match (← table).core c.type with
  | some (.chan dir t) =>
    require (dir ≠ .receive) (.badOperand chan.pos)
    let _ ← assign env v (some t)
  | _ => throw (.badOperand chan.pos)

/-- A variable is counted up or down by one. -/
def stepStmt (r : TypingRules) (env : Env) (x : Expr) (op : Op) : Check Unit := do
  let v ← expr r env x
  require ((← table).all Basic.isNumeric v.type) (.badOperand x.pos)
  let one : Operand := ⟨.constant (.int 1), .basic .untypedInt, .absent⟩
  let v ← binary env x v one (if op = .inc then .add else .sub)
  let target ← assignTarget r env x
  let _ ← assign env v target

/-- A statement that holds no other statements. Gives the names known after it. -/
def simpleStmt (r : TypingRules) (env : Env) (flow : Flow) (s : Stmt) : Check Env := do
  match s with
  | .absent | .empty .. => pure ()
  | .decl _ kind specs _ => return ← localDecl r env kind specs
  | .assign lhs op rhs => return ← assignment r env s.pos lhs op rhs
  | .expr x => exprStmt r env x
  | .send chan value => sendStmt r env chan value
  | .incDec x _ op => stepStmt r env x op
  | .spawn _ call => suspendedCall r env call
  | .postpone _ call => suspendedCall r env call
  | .giveBack pos es => returnStmt r env pos es
  | .branch pos kind _ label =>
    match label, kind with
    | some _, _ => pure ()
    | none, .brk => require flow.canBreak (.badBranch pos)
    | none, .cont => require flow.canContinue (.badBranch pos)
    | none, .fall => require flow.canFall (.badBranch pos)
    | none, .goto => throw (.badBranch pos)
  | s => throw (.badBranch s.pos)
  return env

/-! ## Statements with blocks -/

/-- A condition is a truth value. -/
def condition (r : TypingRules) (env : Env) (e : Expr) : Check Unit := do
  let x ← expr r env e
  require ((← table).all Basic.isBoolean x.type) (.badOperand e.pos)

/-- The statements of a block. -/
def bodyOf (s : Stmt) : List Stmt := s.blockBody?.getD []

/-- At most one clause is the default. -/
def oneDefault (clauses : List Stmt) : Check Unit := do
  let defaults := clauses.filter fun s =>
    match s with
    | .caseClause _ d _ _ _ => d
    | .commClause _ d _ _ _ => d
    | _ => false
  match defaults with
  | _ :: s :: _ => throw (.duplicate s.pos)
  | _ => pure ()

/-- The constant by which a case of a switch is told from others: texts, integers that a word can hold,
and fractions that a double can hold. Other constants are not told apart. -/
def caseKey? : Const → Option Const
  | .real (.int v) => if Basic.holds .int64 v || Basic.holds .uint64 v then some (.int v) else none
  | .real r => if (r.roundIn .double).any r.same then some (.frac r.toRat) else none
  | .str s => some (.str s)
  | _ => none

/-- Constants that are the same case of one switch. -/
def sameCase (a b : Const) : Bool :=
  match caseKey? a, caseKey? b with
  | some k, some l => k == l
  | _, _ => false

/-- The values of a case are compared with the tag. Constants do not repeat. -/
def caseValues (r : TypingRules) (env : Env) (tag : Operand) (es : List Expr)
    (seen : List (Const × Ty)) : Check (List (Const × Ty)) :=
  es.foldlM (fun seen e => do
    let (v, x) ← matchTypes (← expr r env e) tag
    let _ ← comparison env e v x .eql
    let tb ← table
    match v.const? with
    | none => return seen
    | some c =>
      require (!seen.any fun (d, t) => sameCase c d && tb.same t v.type) (.duplicate e.pos)
      return (c, v.type) :: seen) seen

/-- A switch on the value of a tag. -/
def switchStmt (r : TypingRules) (env : Env) (flow : Flow) (init : Stmt) (tag : Expr) (body : Stmt) :
    Check Unit := do
  let env ← simpleStmt r (env.push []) flow.inner init
  let clauses := bodyOf body
  let x ← match tag with
    | .absent => pure (⟨.constant (.bool true), .basic .bool, .absent⟩ : Operand)
    | tag => do
      let x ← assign env (← expr r env tag) none
      let tb ← table
      require (tb.isComparable x.type || tb.hasNil x.type) (.badOperand tag.pos)
      pure x
  oneDefault clauses
  let last := clauses.length - 1
  let _ ← clauses.zipIdx.foldlM (fun seen (s, i) => do
    match s with
    | .caseClause _ _ es _ body =>
      let seen ← caseValues r env x es seen
      r.block (env.push []) { flow with canBreak := true, canFall := i != last } body
      return seen
    | s => throw (.badBranch s.pos)) ([] : List (Const × Ty))
  pure ()

/-- The expression is the value nil. -/
def isNilExpr (env : Env) (e : Expr) : Bool :=
  match e.unparen with
  | .ident id => namesNil env id.name
  | _ => false

/-- The types of a case of a type switch; no type for nil. Types do not repeat. -/
def caseTypes (r : TypingRules) (env : Env) (x : Operand) (es : List Expr) (seen : List (Option Ty)) :
    Check (List (Option Ty)) :=
  es.foldlM (fun acc e => do
    let t ← if isNilExpr env e then pure none else do pure (some (← varType r env e))
    let tb ← table
    let repeated := (seen ++ acc).any fun u =>
      match u, t with
      | none, none => true
      | some a, some b => tb.same a b
      | _, _ => false
    require (!repeated) (.duplicate e.pos)
    match t with
    | some t => require (tb.assertable x.type t) (.mismatch e.pos)
    | none => pure ()
    return acc ++ [t]) []

/-- A switch on the type of an interface value. -/
def typeSwitchStmt (r : TypingRules) (env : Env) (flow : Flow) (init guard body : Stmt) :
    Check Unit := do
  let env ← simpleStmt r (env.push []) flow.inner init
  let (name, e) ← match guard with
    | .expr (.assertion x .absent _) => pure (none, x)
    | .assign [.ident id] .define [.assertion x .absent _] => pure (some id, x)
    | s => throw (.badBranch s.pos)
  match name with
  | some id => require (id.name != blank) (.badDecl id.pos)
  | none => pure ()
  let x ← expr r env e
  require ((← table).isInterface x.type) (.badOperand e.pos)
  let serial ← fresh
  match name with
  | some id => modify fun s => { s with pending := (id.name, serial) :: s.pending }
  | none => pure ()
  let clauses := bodyOf body
  oneDefault clauses
  let _ ← clauses.foldlM (fun seen s => do
    match s with
    | .caseClause _ _ es _ body =>
      let types ← caseTypes r env x es seen
      let type :=
        match types with
        | [some t] => t
        | _ => x.type
      let names :=
        match name with
        | some id => [(id.name, Entity.variable type serial)]
        | none => []
      r.block (env.push names) { flow with canBreak := true, canFall := false } body
      return seen ++ types
    | s => throw (.badBranch s.pos)) ([] : List (Option Ty))
  pure ()

/-- The communication of a clause: a value is sent or received. -/
def commStmt (r : TypingRules) (env : Env) (flow : Flow) (s : Stmt) : Check Env := do
  let receives := fun (e : Expr) => match e.unparen with | .unary _ .arrow _ => true | _ => false
  let ok :=
    match s with
    | .absent | .send .. => true
    | .expr e => receives e
    | .assign _ op [e] => receives e && op.compound?.isNone
    | _ => false
  require ok (.badBranch s.pos)
  simpleStmt r env flow s

/-- A choice between communications. -/
def selectStmt (r : TypingRules) (env : Env) (flow : Flow) (body : Stmt) : Check Unit := do
  let clauses := bodyOf body
  oneDefault clauses
  for s in clauses do
    match s with
    | .commClause _ _ comm _ body =>
      let inner ← commStmt r (env.push []) flow.inner comm
      r.block inner { flow with canBreak := true, canFall := false } body
    | s => throw (.badBranch s.pos)

/-- What ranging over a type gives: the types of the first and of the second variable. -/
def rangeTypes (env : Env) (tb : TypeTable) (t : Ty) : Option (Ty × Option Ty) :=
  match (tb.core t).map tb.arrayBehind with
  | some (.basic b) =>
    if b.isString then some (.basic .int, some (.basic .int32))
    else if b.isInteger && allows env.release 22 then some (t, none)
    else none
  | some (.array _ e) | some (.slice e) => some (.basic .int, some e)
  | some (.mapping k e) => some (k, some e)
  | some (.chan dir e) => if dir = .send then none else some (e, none)
  | _ => none

/-- The variables of a loop over the parts of a value, with what they are given in each round. -/
def rangeVariables (r : TypingRules) (env : Env) (isDefinition : Bool) (pos : Pos)
    (given : List (Expr × Operand)) : Check Env := do
  if isDefinition then
    let vars ← given.mapM fun (e, y) => do
      match e with
      | .ident id => return (id, ← initVariable env none y)
      | e => throw (.badDecl e.pos)
    require (vars.any fun (id, _) => id.name != blank) (.badDecl pos)
    declareVariables env vars
  else
    for (e, y) in given do
      let _ ← assign env y (← assignTarget r env e)
    return env

/-- A loop over the parts of a value, or over the numbers below one. -/
def rangeStmt (r : TypingRules) (env : Env) (flow : Flow) (key value : Expr) (op : Option Op)
    (subject : Expr) (body : Stmt) : Check Unit := do
  let x ← expr r env subject
  let tb ← table
  match rangeTypes env tb x.type with
  | none => throw (.badOperand subject.pos)
  | some (k, v) =>
    require (value.isAbsent || v.isSome) (.badCount value.pos)
    let isCount := tb.is Basic.isInteger x.type
    let given := fun (e : Expr) (t : Ty) =>
      if e.isAbsent then [] else [(e, if isCount then x else (result e t))]
    let pairs := given key k ++ (v.map (given value)).getD []
    if isCount && pairs.isEmpty then
      let _ ← assign env x none
    let env ← rangeVariables r (env.push []) (op = some .define) subject.pos pairs
    r.block (env.push []) { flow with canBreak := true, canContinue := true, canFall := false }
      (bodyOf body)

/-- A statement. Gives the names known after it. -/
def stmt (r : TypingRules) (env : Env) (flow : Flow) : Stmt → Check Env
  | .labeled _ s => stmt r env flow s
  | .block _ body _ => do
    r.block (env.push []) flow.inner body
    return env
  | .ifChain _ init cond body other => do
    let inner ← simpleStmt r (env.push []) flow.inner init
    condition r inner cond
    r.block (inner.push []) flow.inner (bodyOf body)
    match other with
    | .absent => pure ()
    | other => r.block inner flow.inner [other]
    return env
  | .switchOn _ init tag body => do
    switchStmt r env flow init tag body
    return env
  | .typeSwitch _ init guard body => do
    typeSwitchStmt r env flow init guard body
    return env
  | .selectOn _ body => do
    selectStmt r env flow body
    return env
  | .loop _ init cond post body => do
    let inner ← simpleStmt r (env.push []) flow.inner init
    if !cond.isAbsent then condition r inner cond
    let _ ← simpleStmt r inner flow.inner post
    match post with
    | .assign _ .define _ => throw (.badDecl post.pos)
    | _ => pure ()
    r.block (inner.push []) { flow with canBreak := true, canContinue := true, canFall := false }
      (bodyOf body)
    return env
  | .iterate _ key value op subject body => do
    rangeStmt r env flow key value op subject body
    return env
  | s => simpleStmt r env flow s

/-- The rule for the statements of a block. Only the last one that is not empty can fall through to
the next clause. -/
def blockRule (r : TypingRules) (env : Env) (flow : Flow) (ss : List Stmt) : Check Unit := do
  let ss := Control.trimEmpty ss
  let last := ss.length - 1
  let _ ← ss.zipIdx.foldlM (fun env (s, i) =>
    stmt r env { flow with canFall := flow.canFall && i == last } s) env
  pure ()

/-- A call that never comes back: what is known about it tells so. -/
def isPanic (facts : List Fact) (e : Expr) : Bool :=
  match e with
  | .call .. => facts.any fun f => f.start == e.pos && f.stop == e.stop &&
    (match f.type with
     | .tuple [] => true
     | _ => false)
  | _ => false

/-- The body of a function: its statements, its labels, and that it returns what it must. -/
def functionBody (r : TypingRules) (env : Env) (body : Stmt) : Check Unit := do
  let ss := bodyOf body
  let _ ← apart (r.block env ⟨false, false, false⟩ ss)
  match Control.labels ss with
  | .error f => throw f
  | .ok () => pure ()
  if !env.results.isEmpty then
    require (Control.ends (isPanic (← get).facts) none body) (.missingReturn body.stop)

end CaseCover.Check
