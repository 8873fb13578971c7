import CaseCover.Typing.Expr

/-!
# Declarations

Constants, variables and types, as they are declared in functions and at the top of a package. The
name of a type is known before what it stands for, so types can refer to themselves.
-/

namespace CaseCover.Check

/-! ## Constants -/

/-- The type and value of a declared constant. -/
def constantDecl (r : TypingRules) (env : Env) (type init : Expr) : Check (Ty × Const) := do
  let target ← match type with
    | .absent => pure none
    | type => do
      let t ← r.type env type
      require ((← table).isConstantType t) (.badType type.pos)
      pure (some t)
  let x ← expr r env init
  require x.const?.isSome (.badDecl init.pos)
  let x ← match target with
    | some t => assign env x (some t)
    | none => pure x
  match x.const? with
  | some c => return (target.getD x.type, c)
  | none => throw (.badDecl init.pos)

/-! ## Variables -/

/-- The expression is a call. -/
def isCall (e : Expr) : Bool :=
  match e.unparen with
  | .call .. => true
  | _ => false

/-- Gives a value to a variable and tells its type: the one declared, or that of the value. -/
def initVariable (env : Env) (target : Option Ty) (x : Operand) : Check Ty := do
  let x ← assign env x target
  return target.getD x.type

/-- Gives values to variables and tells their types. There is one value for each, or one call gives
all of them, or a value comes with a flag that tells whether it is there. -/
def initVariables (r : TypingRules) (env : Env) (pos : Pos) (targets : List (Option Ty)) (flagOk : Bool)
    (values : List Expr) : Check (List Ty) := do
  if values.length == targets.length && !(values.length == 1 && values.all isCall) then
    (targets.zip values).mapM fun (t, e) => do initVariable env t (← exprTo r env t e)
  else
    match values with
    | [e] =>
      let xs ← multiExpr r env (flagOk && targets.length == 2) e
      require (xs.length == targets.length) (.badCount pos)
      (targets.zip xs).mapM fun (t, x) => initVariable env t x
    | _ => throw (.badCount pos)

/-- Declares variables in the innermost block. -/
def declareVariables (env : Env) (vars : List (Ident × Ty)) : Check Env :=
  vars.foldlM (fun env (id, t) => do
    if id.name == blank then return env
    declare env id (← newVariable id t true)) env

/-! ## Types -/

/-- Enters a type whose declaration is being read. -/
def announceType (name : TypeName) (ambient : List Nat) (type : Expr) : Check Unit :=
  modifyTable fun tb => tb.add ⟨name, [], outermost type, false, [], ambient⟩

/-- What the name of a type stands for. -/
def typeEntityOf (name : TypeName) (params : List Expr) : Entity :=
  if params.isEmpty then .type (.named name []) else .generic name

/-- Reads what a type stands for. `inner` is the environment of the list of type parameters, `outer`
that of the declaration. -/
def defineType (r : TypingRules) (inner outer : Env) (id : Ident) (name : TypeName)
    (params : List Expr) (type : Expr) : Check Unit := do
  let (env, _) ← typeParams r (inner.push [])
    (fun ps => modifyTable fun tb => tb.update name fun d => { d with params := ps }) params
  let t ← r.type (outer.push (env.frames.head?.getD [])) type
  require (!t.isParam) (.badType type.pos)
  modifyTable fun tb => tb.update name fun d => { d with definition := some t, complete := true }
  later (.declared id.pos name)

/-- A type declared inside a function. -/
def localType (r : TypingRules) (env : Env) (id : Ident) (params : List Expr) (isAlias : Bool)
    (type : Expr) : Check Env := do
  if isAlias then
    require params.isEmpty (.badDecl id.pos)
    since env 9 id.pos
    let t ← r.type (← declare env id .unfinished) type
    declare env id (.type t)
  else
    let name : TypeName := ⟨some env.home.path, id.name, ← fresh⟩
    let outer ← declare env id (typeEntityOf name params)
    announceType name env.paramsInScope type
    let inner ← if params.isEmpty then pure outer else declare env id .unfinished
    defineType r inner outer id name params type
    return outer

/-! ## Groups -/

/-- The constants of one line of a group, with the type and values of the last line that had
some. -/
def constantLine (r : TypingRules) (env : Env) (iota : Nat) (names : List Ident) (type : Expr)
    (values : List Expr) : Check Env := do
  let pos := (names.head?.map (·.pos)).getD 0
  require (names.length == values.length) (.badCount pos)
  let entities ← (names.zip values).mapM fun (id, e) => do
    let (t, c) ← constantDecl r { env with iota := some iota } type e
    return (id, Entity.constant t c)
  entities.foldlM (fun env (id, e) => declare env id e) env

/-- The variables of one line of a group. -/
def variableLine (r : TypingRules) (env : Env) (names : List Ident) (type : Expr)
    (values : List Expr) : Check Env := do
  let pos := (names.head?.map (·.pos)).getD 0
  let target ← match type with
    | .absent => pure none
    | type => do pure (some (← varType r env type))
  let types ←
    if values.isEmpty then
      match target with
      | some t => pure (names.map fun _ => t)
      | none => throw (.badDecl pos)
    else initVariables r env pos (names.map fun _ => target) true values
  declareVariables env (names.zip types)

/-- A group of declarations inside a function. -/
def localDecl (r : TypingRules) (env : Env) (kind : DeclKind) (specs : List Spec) : Check Env := do
  let start : Env × Nat × Expr × List Expr := (env, 0, .absent, [])
  let (env, _, _, _) ← specs.foldlM (fun (env, iota, type, values) spec => do
    match spec, kind with
    | .values names t vs, .consts =>
      let (type, values) := if t.isAbsent && vs.isEmpty then (type, values) else (t, vs)
      let env ← constantLine r env iota names type values
      return (env, iota + 1, type, values)
    | .values names t vs, _ => return (← variableLine r env names t vs, iota + 1, type, values)
    | .type id params isAlias t, _ =>
      return (← localType r env id params isAlias t, iota + 1, type, values)
    | .importing _ pos _, _ => throw (.badDecl pos)) start
  return env

end CaseCover.Check
