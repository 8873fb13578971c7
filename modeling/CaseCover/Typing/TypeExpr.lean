import CaseCover.Text.Quoted
import CaseCover.Typing.Check

/-!
# Type expressions

The types that type expressions denote, and the parameters of functions and generic declarations.
Most rules on the parts of a type need complete declarations and are put off.
-/

namespace CaseCover.Check

/-- The parameters or results of a function: names where there are some, and types. -/
structure Params where
  names : List (Option Ident)
  types : List Ty
  variadic : Bool

namespace Params

/-- The names that are there. -/
def idents (p : Params) : List Ident := p.names.filterMap id

/-- The names that are there, with their types. -/
def named (p : Params) : List (Ident × Ty) :=
  (p.names.zip p.types).filterMap fun (n, t) => n.map fun id => (id, t)

end Params

/-- A type that variables can have is no constraint. -/
def ordinary (pos : Pos) (t : Ty) : Check Unit := if t.isParam then pure () else later (.ordinary pos t)

/-- The type of a variable, which no constraint may be. -/
def varType (r : TypingRules) (env : Env) (e : Expr) : Check Ty := do
  let t ← r.type env e
  ordinary e.pos t
  return t

/-- A generic type with arguments. -/
def instantiate (r : TypingRules) (env : Env) (pos : Pos) (name : TypeName) (args : List Expr) :
    Check Ty := do
  let types ← args.mapM (varType r env)
  later (.applied pos env.release name types)
  return .named name types

/-- The length of an array: a constant that is a whole number and not negative. -/
def arrayLength (r : TypingRules) (env : Env) (e : Expr) : Check Nat := do
  match e with
  | .ident id => require (namesConstant env id.name) (.badType e.pos)
  | _ => pure ()
  let x ← expr r env e
  let tb ← table
  match x.const? with
  | none => throw (.badType e.pos)
  | some c =>
    require (x.type.isUntyped || tb.is Basic.isInteger x.type) (.badType e.pos)
    match c.represent .int with
    | some (.real (.int (.ofNat n))) => return n
    | _ => throw (.badType e.pos)

/-- The parameters of a list of fields. Only the last one can stand for any number of values. -/
def params (r : TypingRules) (env : Env) (variadicOk : Bool) (fields : List Expr) : Check Params := do
  let count := fields.length
  let parts ← (fields.zipIdx).mapM fun (f, i) => do
    match f with
    | .field names (.ellipsis pos element) _ =>
      require (variadicOk && i + 1 == count && names.length ≤ 1) (.badType pos)
      let t ← varType r env element
      return (names, Ty.slice t, true)
    | .field names type _ => return (names, ← varType r env type, false)
    | e => throw (.badType e.pos)
  return {
    names := parts.flatMap fun (names, _, _) => if names.isEmpty then [none] else names.map some
    types := parts.flatMap fun (names, t, _) => List.replicate (max names.length 1) t
    variadic := parts.any fun (_, _, v) => v }

/-- The parameters and results of a function type. -/
def signature (r : TypingRules) (env : Env) (ps rs : List Expr) : Check (Params × Params) := do
  return (← params r env true ps, ← params r env false rs)

/-- The type of a function with parameters and results. -/
def funcType (ps rs : Params) : Ty := .func ps.types rs.types ps.variadic

/-- The type that a function type denotes. All its names are distinct. -/
def funcTypeExpr (r : TypingRules) (env : Env) (ps rs : List Expr) : Check Ty := do
  let (ps, rs) ← signature r env ps rs
  distinct (ps.idents ++ rs.idents)
  return funcType ps rs

/-- The name of the type that an embedded field has. -/
def embeddedName : Expr → Option Ident
  | .ident id => some id
  | .star _ (.star _ _) => none
  | .star _ x => embeddedName x
  | .selector _ sel => some sel
  | .index x _ _ => embeddedName x
  | _ => none

/-- The fields of a structure. -/
def structType (r : TypingRules) (env : Env) (fields : List Expr) : Check Ty := do
  let parts ← fields.mapM fun f => do
    match f with
    | .field [] type tag =>
      let t ← varType r env type
      match embeddedName type with
      | none => throw (.badType type.pos)
      | some id =>
        later (.embeddable type.pos t)
        return ([id], true, t, tag)
    | .field names type tag => return (names, false, ← varType r env type, tag)
    | e => throw (.badType e.pos)
  distinct (parts.flatMap fun (names, _, _, _) => names)
  let named := parts.flatMap fun (names, embedded, t, tag) =>
    let tag := (Const.stringLiteral tag).getD []
    names.map fun id =>
      ((⟨MemberName.seenFrom env.home.path id.name, embedded, tag⟩ : FieldName), t)
  return .struct (named.map (·.1)) (named.map (·.2))

/-! ## Interfaces -/

/-- The most terms that a union may have. -/
def maxTerms : Nat := 100

/-- The terms of a union. -/
def unionTerms : Expr → List Expr
  | .binary x .or y => unionTerms x ++ [y]
  | e => [e]

/-- A term of a union, which no type parameter may be. -/
def unionTerm (r : TypingRules) (env : Env) (e : Expr) : Check Term := do
  let (tilde, type) := match e with
    | .unary _ .tilde x => (true, x)
    | e => (false, e)
  let t ← r.type env type
  require (!t.isParam) (.badType e.pos)
  return ⟨tilde, t⟩

/-- A type that an interface embeds: another interface, or a union of types. -/
def embeddedType (r : TypingRules) (env : Env) (e : Expr) : Check Ty := do
  match ← (unionTerms e).mapM (unionTerm r env) with
  | [⟨false, t⟩] => return t
  | ts =>
    require (ts.length ≤ maxTerms) (.badType e.pos)
    later (.union e.pos ts)
    return .union (ts.map (·.tilde)) (ts.map (·.type))

/-- The methods of an interface and the types it embeds. -/
def interfaceType (r : TypingRules) (env : Env) (pos : Pos) (members : List Expr) : Check Ty := do
  let parts ← members.mapM fun m => do
    match m with
    | .field [id] (.funcType _ _ ps rs _) _ =>
      require (id.name != blank) (.badType id.pos)
      return Sum.inl (id, ← funcTypeExpr r env ps rs)
    | .field [] type _ => return Sum.inr (← embeddedType r env type)
    | e => throw (.badType e.pos)
  let methods := parts.filterMap Sum.getLeft?
  distinct (methods.map (·.1))
  let sorted := (methods.map fun (id, t) => (MemberName.seenFrom env.home.path id.name, t)).mergeSort
    fun a b => Text.lessEq a.1.name b.1.name
  let t := Ty.interface (sorted.map (·.1)) (sorted.map (·.2)) (parts.filterMap Sum.getRight?)
  if !members.isEmpty then later (.abstract pos env.release t)
  return t

/-- The constraint of a type parameter. A union stands for the interface that embeds it. -/
def constraintType (r : TypingRules) (env : Env) (e : Expr) : Check Ty := do
  match e with
  | .unary _ .tilde _ | .binary _ .or _ => interfaceType r env e.pos [.field [] e []]
  | e =>
    let t ← r.type env e
    require (!t.isParam) (.badType e.pos)
    return t

/-- Declares type parameters in the innermost block, without constraints yet. Gives the numbers of
each group of them with the expression of its constraint. -/
def declareTypeParams (env : Env) (fields : List Expr) : Check (Env × List (List Nat × Expr)) :=
  fields.foldlM (fun (env, groups) f => do
    match f with
    | .field names type _ =>
      since env 18 f.pos
      let (env, params) ← names.foldlM (fun ((env, params) : Env × List Nat) id => do
        let n ← fresh
        return (← declare env id (.type (.param n id.name)), params ++ [n])) (env, [])
      return (env, groups ++ [(params, type)])
    | e => throw (.badType e.pos)) (env, [])

/-- The constraints of declared type parameters. -/
def bindTypeParams (r : TypingRules) (env : Env) (groups : List (List Nat × Expr)) : Check Unit := do
  for (params, type) in groups do
    let b ← constraintType r { env with inParams := true } type
    modifyTable fun tb => tb.bind (params.map fun n => (n, b))

/-- Declares type parameters in the innermost block and gives their numbers. What `known` says about
these is known already to their constraints. -/
def typeParams (r : TypingRules) (env : Env) (known : List Nat → Check Unit) (fields : List Expr) :
    Check (Env × List Nat) := do
  let (env, groups) ← declareTypeParams env fields
  let params := groups.flatMap (·.1)
  known params
  bindTypeParams r env groups
  return (env, params)

/-! ## The rule -/

/-- What the name of a type stands for. -/
def typeEntity (r : TypingRules) (env : Env) : Expr → Check Entity
  | .ident id => resolve r env true id
  | .selector (.ident p) sel => do
    match ← packageNamed? env p with
    | none => throw (.notType p.pos)
    | some pkg => qualified pkg sel
  | e => throw (.notType e.pos)

/-- The type that a type expression denotes. -/
def typeRule (r : TypingRules) (env : Env) : Expr → Check Ty
  | .paren _ x _ => r.type env x
  | .index x args _ => do
    since env 18 x.pos
    match ← typeEntity r env x with
    | .generic name => instantiate r env x.pos name args
    | _ => throw (.notType x.pos)
  | .star _ x => do return .pointer (← varType r env x)
  | .arrayType _ .absent element => do return .slice (← varType r env element)
  | .arrayType pos (.ellipsis _ _) _ => throw (.badType pos)
  | .arrayType _ length element => do
    let n ← arrayLength r env length
    return .array n (← varType r env element)
  | .structType _ fields _ => structType r env fields
  | .funcType _ _ ps rs _ => funcTypeExpr r env ps rs
  | .interfaceType pos members _ => interfaceType r env pos members
  | .mapType pos key value => do
    let k ← varType r env key
    let v ← varType r env value
    later (.comparable pos k)
    return .mapping k v
  | .chanType _ dir value => do return .chan dir (← varType r env value)
  | e => do
    match ← typeEntity r env e with
    | .type t => return t
    | _ => throw (.notType e.pos)

/-- The outermost part of the type that a type expression denotes, as far as its form tells. -/
def outermost : Expr → Option Ty
  | .paren _ x _ => outermost x
  | .star _ _ => some (.pointer (.basic .invalid))
  | .arrayType _ .absent _ => some (.slice (.basic .invalid))
  | .arrayType _ _ _ => some (.array 0 (.basic .invalid))
  | .structType _ _ _ => some (.struct [] [])
  | .funcType _ _ _ _ _ => some (.func [] [] false)
  | .interfaceType _ _ _ => some Ty.any
  | .mapType _ _ _ => some (.mapping (.basic .invalid) (.basic .invalid))
  | .chanType _ dir _ => some (.chan dir (.basic .invalid))
  | _ => none

end CaseCover.Check
