import CaseCover.Typing.Builtin
import CaseCover.Typing.Infer

/-!
# Calls

Calls of functions, conversions, and generic functions that get their type arguments. Arguments are
assigned to parameters one by one; a call with several results can stand for all arguments. Type
arguments that are left out are inferred, those of the called function together with those of generic
functions among the arguments.
-/

namespace CaseCover.Check

/-! ## Generic functions -/

/-- Type parameters with fresh ones in their place, and a type with the fresh ones. -/
def refresh (params : List Nat) (t : Ty) : Check (List Nat × Ty) := do
  let fresh ← params.mapM fun _ => fresh
  let σ := params.zip (fresh.map fun n => Ty.param n [])
  let tb ← table
  modifyTable fun tb' => tb'.bind ((params.zip fresh).map fun (p, n) => (n, (tb.bound p).subst σ))
  return (fresh, t.subst σ)

/-- The type arguments for parameters, some of which are given. -/
def inferred (env : Env) (pos : Pos) (params : List Nat) (given : List (Option Ty))
    (pairs : List (Ty × Operand)) : Check (List Ty) := do
  match Unifier.infer (← table) (allows env.release 21) params given pairs with
  | .ok args => return args
  | .error .mismatch => throw (.badCall pos)
  | .error .tooDeep => throw .unbounded

/-- As many type arguments as there are parameters, of which the first are given. -/
def padded (params : List Nat) (given : List Ty) : List (Option Ty) :=
  given.map some ++ List.replicate (params.length - given.length) none

/-- A generic function with all its type arguments. -/
def specialised (env : Env) (e : Expr) (params : List Nat) (t : Ty) (args : List Ty) : Check Operand := do
  later (.replaced e.pos env.release params args)
  return result e (t.subst (params.zip args))

/-- A generic function as a value: the type arguments that are not given are inferred from the
constraints, and from the type of the variable that it is assigned to. -/
def functionValue (env : Env) (e : Expr) (params : List Nat) (t : Ty) (given : List Ty)
    (target : Option Ty) : Check Operand := do
  since env 18 e.pos
  require (given.length ≤ params.length) (.badCount e.pos)
  if given.length == params.length then return ← specialised env e params t given
  let (vars, u) ← refresh params t
  let pairs ← match target with
    | some f => do
      since env 21 e.pos
      pure [(u, result e f)]
    | none => pure []
  specialised env e params t (← inferred env e.pos vars (padded params given) pairs)

/-! ## Arguments -/

/-- An argument of a call: an operand, and for a generic function the type arguments it comes
with. -/
structure Argument where
  operand : Operand
  given : List Ty

/-- The arguments that an expression stands for. Before arguments took part in inference, a function
with some type arguments had to be complete. -/
def argumentsOf (r : TypingRules) (env : Env) (single : Bool) (e : Expr) : Check (List Argument) := do
  match e with
  | .index x targs _ =>
    let f ← exprOrType r env true x
    match f.mode with
    | .genericFunc params =>
      since env 18 e.pos
      let given ← targs.mapM (varType r env)
      require (given.length ≤ params.length) (.badCount e.pos)
      if given.length < params.length && allows env.release 21 then
        return [⟨{ f with expr := e }, given⟩]
      return [⟨← functionValue env e params f.type given none, []⟩]
    | _ =>
      let x ← indexed r env e f targs
      keep x
      return [⟨← singleValue x, []⟩]
  | e =>
    let (x, _) ← r.expr env { Want.plain with generic := true } e
    match single, x.mode, x.type with
    | true, .value, .tuple ts => return ts.map fun t => ⟨result e t, []⟩
    | _, _, _ => return [⟨← singleValue x, []⟩]

/-- The arguments of a call: one call with several results stands for all of them. -/
def arguments (r : TypingRules) (env : Env) (es : List Expr) : Check (List Argument) := do
  return (← es.mapM (argumentsOf r env (es.length == 1))).flatten

/-- The types of the parameters for so many arguments, of which so many are written. -/
def parameterTypes (pos : Pos) (ps : List Ty) (variadic spread : Bool) (written count : Nat) :
    Check (List Ty) := do
  if variadic && !spread then
    let fixed := ps.dropLast
    require (fixed.length ≤ count) (.badCount pos)
    match ps.getLast? with
    | some (.slice t) => return fixed ++ List.replicate (count - fixed.length) t
    | _ => throw (.badCall pos)
  else
    require (variadic || !spread) (.badCall pos)
    require (!(spread && written == 1 && 1 < count)) (.badCall pos)
    require (ps.length == count) (.badCount pos)
    return ps

/-- A generic argument with fresh type parameters. -/
structure OpenArgument where
  operand : Operand
  vars : List Nat
  given : List (Option Ty)

/-- The argument as inference sees it. -/
def openArgument (env : Env) (a : Argument) : Check OpenArgument := do
  match a.operand.mode with
  | .genericFunc params =>
    since env 21 a.operand.pos
    let (vars, t) ← refresh params a.operand.type
    return ⟨{ a.operand with mode := .value, type := t }, vars, padded params a.given⟩
  | _ => return ⟨a.operand, [], []⟩

/-- Closes generic arguments: each takes its part of the type arguments. -/
def closeArguments (env : Env) : List OpenArgument → List Ty → Check (List Operand)
  | [], _ => return []
  | a :: rest, args => do
    let x ← match a.vars with
      | [] => pure a.operand
      | vars => do
        let x ← specialised env a.operand.expr vars a.operand.type (args.take vars.length)
        record x.expr x.type none false
        pure x
    return x :: (← closeArguments env rest (args.drop a.vars.length))

/-- The result of a call of a function, which may be generic and have some of its type arguments. -/
def applied (env : Env) (e : Expr) (params : List Nat) (given : List Ty) (t : Ty) (spread : Bool)
    (written : Nat) (args : List Argument) : Check Operand := do
  match t with
  | .func ps rs variadic =>
    let types ← parameterTypes e.pos ps variadic spread written args.length
    if !params.isEmpty then since env 18 e.pos
    let (vars, renamed) ← refresh params (.tuple types)
    let types := match renamed with
      | .tuple ts => ts
      | _ => types
    let opened ← args.mapM (openArgument env)
    let allVars := vars ++ opened.flatMap (·.vars)
    let allGiven := padded params given ++ opened.flatMap (·.given)
    let targs ←
      if allVars.isEmpty then pure []
      else inferred env e.pos allVars allGiven (types.zip (opened.map (·.operand)))
    let own := targs.take params.length
    if !params.isEmpty then later (.replaced e.pos env.release params own)
    let operands ← closeArguments env opened (targs.drop params.length)
    let σ := vars.zip own
    for (p, x) in types.zip operands do
      let _ ← assign env x (some (p.subst σ))
    match Ty.substAll (params.zip own) rs with
    | [] => return noResult e
    | rs => return result e (Ty.ofResults rs)
  | _ => throw (.badCall e.pos)

/-! ## The rule -/

/-- What is called: a type, a built-in function, or a function with the type arguments that it has
been given. -/
def calleeOf (r : TypingRules) (env : Env) (fn : Expr) : Check (Operand × List Ty) := do
  match fn with
  | .index x targs _ =>
    let f ← exprOrType r env true x
    match f.mode with
    | .genericFunc params =>
      let given ← targs.mapM (varType r env)
      require (given.length ≤ params.length) (.badCount fn.pos)
      if given.length == params.length then
        return (← functionValue env fn params f.type given none, [])
      return (f, given)
    | _ =>
      let x ← indexed r env fn f targs
      keep x
      return (x, [])
  | fn => return (← exprOrType r env true fn, [])

/-- A call: a conversion, a built-in function, a generic or a plain function. -/
def call (r : TypingRules) (env : Env) (e fn : Expr) (args : List Expr) (spread : Bool) :
    Check (Operand × ExprKind) := do
  let (f, given) ← calleeOf r env fn
  match f.mode with
  | .genericType _ => throw (.badType fn.pos)
  | .typeExpr =>
    match args with
    | [a] =>
      let x ← expr r env a
      require (!(← table).isConstraint f.type && !spread) (.badCall e.pos)
      return (← convert env e x f.type, .conversion)
    | _ => throw (.badCount e.pos)
  | .builtin b => return (← builtinCall r env e b args spread, builtinKind b)
  | mode =>
    let params := match mode with
      | .genericFunc params => params
      | _ => []
    match (← table).core f.type with
    | some t =>
      let xs ← arguments r env args
      let x ← applied env e params given t spread args.length xs
      act
      return (x, .action)
    | none => throw (.badCall e.pos)

end CaseCover.Check
