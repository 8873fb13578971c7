import CaseCover.Typing.Index

/-!
# Composite literals

Literals of structures, arrays, slices and maps. An element that is itself a literal may leave out
its type, which the literal around it then gives. Positions and constant keys do not repeat.
-/

namespace CaseCover.Check

/-- The expression has a key. -/
def isPair : Expr → Bool
  | .pair .. => true
  | _ => false

/-- The value of a field that is named. -/
def namedField (r : TypingRules) (env : Env) (fields : List (FieldName × Ty)) (e : Expr) :
    Check Ident := do
  match e with
  | .pair key value =>
    let x ← expr r env value
    match key with
    | .ident id =>
      let name := MemberName.seenFrom env.home.path id.name
      match fields.find? fun f => id.name != blank && f.1.member == name with
      | some (_, t) =>
        let _ ← assign env x (some t)
        return id
      | none => throw (.noMember id)
    | key => throw (.badOperand key.pos)
  | e => throw (.badOperand e.pos)

/-- The elements of a structure, by field name or in the order of the fields. -/
def structElements (r : TypingRules) (env : Env) (pos : Pos) (fields : List (FieldName × Ty))
    (elements : List Expr) : Check Unit := do
  match elements with
  | [] => pure ()
  | first :: _ =>
    if isPair first then distinct (← elements.mapM (namedField r env fields))
    else
      require (!elements.any isPair && elements.length == fields.length) (.badCount pos)
      for (e, f, t) in elements.zip fields do
        let x ← expr r env e
        require (f.member.home.isEmpty || f.member.home == env.home.path) (.badOperand pos)
        let _ ← assign env x (some t)

/-- The position after another one. The last one that a word can hold is followed by the least. -/
def nextPosition (i : Int) : Int := (i + 1).bmod (2 ^ 64)

/-- The elements of an array or slice; gives the length they need. -/
def listElements (r : TypingRules) (env : Env) (t : Ty) (length : Option Nat)
    (elements : List Expr) : Check Nat := do
  let (_, most, _) ← elements.foldlM (fun ((next, most, seen) : Int × Int × List Int) e => do
    let (here, value) ← match e with
      | .pair k v =>
        match ← index r env length k with
        | some n => pure ((n : Int), v)
        | none => throw (.badOperand k.pos)
      | e => pure (next, e)
    require (length.all fun n => here < n) (.badOperand e.pos)
    require (!seen.contains here) (.duplicate e.pos)
    let _ ← assign env (← element r env t value) (some t)
    let next := nextPosition here
    return (next, max most next, here :: seen)) (0, 0, [])
  return most.toNat

/-- Two constants are the same key: equal texts or truth values, equal whole numbers that a word can
hold, or other numbers that are equal with the digits of a double. -/
def sameKey (a b : Const) : Bool :=
  match a.toInt?, b.toInt? with
  | some v, some w => v == w && (Basic.holds .int64 v || Basic.holds .uint64 v)
  | none, none =>
    match a.represent .complex128, b.represent .complex128 with
    | some c, some d => c.same d
    | none, none => a.same b
    | _, _ => false
  | _, _ => false

/-- The elements of a map; constant keys are distinct. Where keys are interfaces, keys of different
types are. -/
def mapElements (r : TypingRules) (env : Env) (key value : Ty) (elements : List Expr) :
    Check Unit := do
  let _ ← elements.foldlM (fun (seen : List (Const × Ty)) e => do
    match e with
    | .pair k v =>
      let x ← assign env (← element r env key k) (some key)
      let tb ← table
      let seen ← match x.const? with
        | some c => do
          let repeated := seen.any fun (d, t) =>
            sameKey c d && (!tb.isInterface key || tb.same t x.type)
          require (!repeated) (.duplicate k.pos)
          pure ((c, x.type) :: seen)
        | none => pure seen
      let _ ← assign env (← element r env value v) (some value)
      return seen
    | e => throw (.badOperand e.pos)) []
  pure ()

/-- The elements of a literal of a type. -/
def elementsFor (r : TypingRules) (env : Env) (pos : Pos) (t : Ty) (elements : List Expr) :
    Check Unit := do
  let tb ← table
  require (tb.isComplete t) .cycle
  match tb.core t with
  | some (.struct fs ts) => structElements r env pos (fs.zip ts) elements
  | some (.array n e) =>
    let _ ← listElements r env e (some n) elements
  | some (.slice e) =>
    let _ ← listElements r env e none elements
  | some (.mapping k v) => mapElements r env k v elements
  | _ => throw (.badType pos)

/-- A literal of a structure, array, slice or map. Without a type it takes the one that its place
offers, or what that points to. -/
def compositeExpr (r : TypingRules) (env : Env) (hint : Option Ty) (e type : Expr)
    (elements : List Expr) : Check Operand := do
  match type with
  | .arrayType _ (.ellipsis _ .absent) element =>
    let t ← varType r env element
    let n ← listElements r env t none elements
    return result e (.array n t)
  | .absent =>
    let tb ← table
    match hint, hint.bind tb.core with
    | some t, some u =>
      require (tb.isComplete t) .cycle
      elementsFor r env e.pos u.deref.1 elements
      return result e t
    | _, _ => throw (.badType e.pos)
  | type =>
    let t ← r.type env type
    elementsFor r env e.pos t elements
    return result e t

end CaseCover.Check
