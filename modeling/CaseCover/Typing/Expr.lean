import CaseCover.Typing.Call
import CaseCover.Typing.Composite

/-!
# Expressions

The rule for every form of expression, with what is known about it kept as a fact.
-/

namespace CaseCover.Check

/-! ## Names and members -/

/-- The operand that a name gives. -/
def entityOperand (env : Env) (e : Expr) : Entity → Check Operand
  | .package .. => throw (.notValue e.pos)
  | .constant t c => return ⟨.constant c, t, e⟩
  | .iota =>
    match env.iota with
    | some n => return ⟨.constant (.int n), .basic .untypedInt, e⟩
    | none => throw (.badOperand e.pos)
  | .type t => return ⟨.typeExpr, t, e⟩
  | .generic n => return ⟨.genericType n, .basic .invalid, e⟩
  | .variable t serial => do
    use serial
    return ⟨.variable, t, e⟩
  | .global t => return ⟨.variable, t, e⟩
  | .function t [] => return result e t
  | .function t ps => return ⟨.genericFunc ps, t, e⟩
  | .builtin b => return ⟨.builtin b, .basic .invalid, e⟩
  | .nilValue => return result e (.basic .untypedNil)
  | .unfinished => throw .cycle

/-- The member that a selector finds. A method whose declaration has not been read is read. -/
def memberOf (r : TypingRules) (env : Env) (x : Operand) (sel : Ident) : Check Selection := do
  let name := MemberName.seenFrom env.home.path sel.name
  let find := do
    match (← table).select? x.type x.isAddressable name with
    | some s => pure s
    | none => throw (.noMember sel)
  let s ← find
  match s.member with
  | .method none _ (some (_, _, source)) =>
    r.method env.home source
    find
  | _ => return s

/-- A field or method of a value, or a method of a type. -/
def memberOperand (r : TypingRules) (env : Env) (e : Expr) (x : Operand) (sel : Ident) :
    Check Operand := do
  match x.mode with
  | .builtin _ => throw (.notValue x.pos)
  | _ => pure ()
  let s ← memberOf r env x sel
  match s.member with
  | .field t =>
    require (!x.isType) (.noMember sel)
    return ⟨if x.isAddressable || s.indirect then .variable else .value, t, e⟩
  | .method type _ owner =>
    match owner with
    | some (n, [], source) =>
      if n.home == some env.home.path then depend env (.method source)
    | _ => pure ()
    match x.isType, type with
    | true, some (.func ps rs v) => return result e (.func (x.type :: ps) rs v)
    | false, some t => return result e t
    | _, _ => throw .cycle

/-- An expression with a selector. -/
def selectorExpr (r : TypingRules) (env : Env) (e x : Expr) (sel : Ident) : Check Operand := do
  let pkg ← match x with
    | .ident id => packageNamed? env id
    | _ => pure none
  match pkg with
  | some p => entityOperand env e (← qualified p sel)
  | none => memberOperand r env e (← exprOrType r env false x) sel

/-! ## Literals -/

/-- The most characters that a number may be written with. -/
def maxLiteral : Nat := 10000

/-- A number is written in a way that came later. -/
def isNewerLiteral (kind : Const.LiteralKind) (text : Text) : Bool :=
  let isOf := fun (lower upper : UInt8) (b : UInt8) => b == lower || b == upper
  2 < text.length &&
    (text.contains 0x5F ||
      (match text with
       | 0x30 :: b :: _ =>
         isOf 0x62 0x42 b || isOf 0x6F 0x4F b || (kind ≠ .int && isOf 0x78 0x58 b)
       | _ => false))

/-- A literal of a basic type. -/
def literalExpr (env : Env) (e : Expr) (pos : Pos) (kind : Const.LiteralKind) (text : Text) :
    Check Operand := do
  let b : Basic :=
    match kind with
    | .int => .untypedInt
    | .float => .untypedFloat
    | .imag => .untypedComplex
    | .char => .untypedRune
    | .string => .untypedString
  if b.isNumeric && b ≠ .untypedRune then
    if isNewerLiteral kind text then since env 13 pos
    require (text.length ≤ maxLiteral) (.overflow pos)
  match Const.ofLiteral kind text with
  | none => throw (.badOperand pos)
  | some c =>
    require (!c.overflows) (.overflow pos)
    return ⟨.constant c, .basic b, e⟩

/-- The environment in a function with the given receiver, parameters and results. Their names stand
in the innermost block, beside those of type parameters. -/
def enterFunction (env : Env) (receiver : List (Ident × Ty)) (ps rs : Params) : Check Env := do
  let env ← (receiver ++ ps.named).foldlM (fun env (id, t) => do
    declare env id (← newVariable id t false)) env
  let (env, names) ← rs.named.foldlM (fun (env, names) (id, t) => do
    let n ← fresh
    let env ← declare env id (.variable t n)
    return (env, names ++ [(id.name, n)])) (env, [])
  return { env with results := rs.types, resultNames := names }

/-- A literal of a function; its body is checked later. -/
def functionExpr (r : TypingRules) (env : Env) (e type : Expr) (body : Stmt) : Check Operand := do
  match type with
  | .funcType _ _ ps rs _ =>
    let (ps, rs) ← signature r env ps rs
    let inner ← enterFunction (env.push []) [] ps rs
    later (.body inner body)
    return result e (funcType ps rs)
  | _ => throw (.badType e.pos)

/-! ## Operators -/

/-- The value of a type asserted of an interface value. -/
def assertionExpr (r : TypingRules) (env : Env) (e x type : Expr) : Check Operand := do
  let x ← expr r env x
  require ((← table).isInterface x.type) (.badOperand e.pos)
  let t ← varType r env type
  require ((← table).assertable x.type t) (.mismatch e.pos)
  return ⟨.commaOk, t, e⟩

/-- What a pointer points to, or the type of pointers to a type. -/
def starExpr (r : TypingRules) (env : Env) (e : Expr) (x : Expr) : Check Operand := do
  let v ← exprOrType r env false x
  if v.isType then
    ordinary x.pos v.type
    return ⟨.typeExpr, .pointer v.type, e⟩
  let tb ← table
  let bases := (tb.unders v.type).mapM fun u =>
    match u with
    | .pointer t => some t
    | _ => none
  match bases with
  | some (t :: rest) =>
    require (rest.all (tb.same t)) (.badOperand e.pos)
    return ⟨.variable, t, e⟩
  | _ => throw (.badOperand e.pos)

/-- An address, a received value or an operator on one operand. -/
def unaryExpr (r : TypingRules) (env : Env) (e : Expr) (op : Op) (x : Expr) : Check Operand := do
  let v ← expr r env x
  match op with
  | .and =>
    let isLiteral := match x.unparen with
      | .composite .. => true
      | _ => false
    require (isLiteral || v.isAddressable) (.badOperand e.pos)
    return result e (.pointer v.type)
  | .arrow =>
    match (← table).core v.type with
    | some (.chan dir t) =>
      require (dir ≠ .send) (.badOperand e.pos)
      act
      return ⟨.commaOk, t, e⟩
    | _ => throw (.badOperand e.pos)
  | op => unary e op v

/-! ## The rule -/

/-- The operand of an expression, before anything is kept about it. -/
def operand (r : TypingRules) (env : Env) (want : Want) (e : Expr) : Check (Operand × ExprKind) := do
  let value := fun (x : Check Operand) => do return (← x, ExprKind.value)
  match e with
  | .ident id => value do entityOperand env e (← resolve r env false id)
  | .literal pos kind text => value (literalExpr env e pos kind text)
  | .paren _ x _ =>
    let (v, kind) ← r.expr env .plain x
    return ({ v with expr := e }, kind)
  | .selector x sel => value (selectorExpr r env e x sel)
  | .index x args _ => value do
    let f ← exprOrType r env true x
    match f.mode with
    | .genericFunc params =>
      functionValue env e params f.type (← args.mapM (varType r env)) want.target
    | _ => indexed r env e f args
  | .slice x low high most full _ => value (sliceExpr r env e x low high most full)
  | .assertion _ .absent _ => throw (.badOperand e.pos)
  | .assertion x type _ => value (assertionExpr r env e x type)
  | .call fn args dots _ => call r env e fn args (dots ≠ 0)
  | .star _ x => value (starExpr r env e x)
  | .unary _ op x => do
    return (← unaryExpr r env e op x, if op = .arrow then .action else .value)
  | .binary x op y => value do binary env e (← expr r env x) (← expr r env y) op
  | .composite type _ elements _ => value (compositeExpr r env want.hint e type elements)
  | .function type body => value (functionExpr r env e type body)
  | .arrayType .. | .structType .. | .funcType .. | .interfaceType .. | .mapType .. | .chanType .. =>
    return (⟨.typeExpr, ← r.type env e, e⟩, .value)
  | e => throw (.notValue e.pos)

/-- The rule for expressions. A generic function takes its type arguments from the variable that it
is assigned to. -/
def exprRule (r : TypingRules) (env : Env) (want : Want) (e : Expr) : Check (Operand × ExprKind) := do
  let (x, kind) ← operand r env want e
  let x ← match want.generic, x.mode with
    | false, .genericType _ => throw (.badType e.pos)
    | false, .genericFunc params =>
      match want.target with
      | some t => functionValue env e params x.type [] (some t)
      | none => throw (.notValue e.pos)
    | _, _ => pure x
  keep x
  return (x, kind)

end CaseCover.Check
