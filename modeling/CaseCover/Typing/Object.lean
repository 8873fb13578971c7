import CaseCover.Typing.Collect
import CaseCover.Typing.Stmt

/-!
# Reading declarations

The declarations of a package are read when they are first needed. While one is being read, others
may refer to it as far as it is known: a type by its name, a function without parameters, a variable
by its declared type. What must not refer to itself is not known until it has been read to the end.
-/

namespace CaseCover.Check

/-! ## Progress -/

/-- How far the reading of a declaration has come. -/
def progress? (n : Node) : Check (Option Progress) := do return (← get).progress.lookup n

/-- Notes how far the reading of a declaration has come. -/
def setProgress (n : Node) (p : Progress) : Check Unit :=
  modify fun s => { s with progress := (n, p) :: s.progress.filter fun e => e.1 != n }

/-- Something is known of a declaration that is being read. -/
def announce (n : Node) (e : Entity) : Check Unit := setProgress n (.active (some e))

/-- Reads a declaration, which is on the path meanwhile. -/
def reading {α : Type} (n : Node) (x : Check α) : Check α := do
  modify fun s => { s with path := n :: s.path }
  let (a, _) ← apart x
  modify fun s => { s with path := s.path.tail }
  return a

/-- The declaration has a value: it is that of a constant or variable. -/
def PackageObject.hasValue (o : PackageObject) : Bool :=
  match o.decl with
  | .const .. | .var .. => true
  | _ => false

/-- The declaration is that of a type; `isAlias` for another name of a type. -/
def PackageObject.definesType (o : PackageObject) (isAlias : Bool) : Bool :=
  match o.decl with
  | .type _ a _ => a == isAlias
  | _ => false

/-- The declaration is that of a type with parameters. -/
def PackageObject.isGeneric (o : PackageObject) : Bool :=
  match o.decl with
  | .type params _ _ => !params.isEmpty
  | _ => false

/-- The declarations that are being read from a given one on may refer to it: they have no values and
define a type, and the place is in no list of type parameters that such a type has. -/
def mayRefer (env : Env) (n : Node) (path : List Node) : Bool :=
  let circle := (n :: path.takeWhile (· != n)).filterMap fun m =>
    match m with
    | .object i => env.home.objects[i]?
    | .method _ => none
  !(env.inParams && circle.any PackageObject.isGeneric) &&
    !circle.any PackageObject.hasValue && circle.any fun o => PackageObject.definesType o false

/-! ## Types -/

/-- The methods that the package declares for a type. No two have the same name. -/
def attachMethods (home : Home) (i : Nat) (name : TypeName) : Check Unit := do
  let sources := home.methods.zipIdx.filter fun (m, _) => m.base == some i
  distinct (sources.map fun (m, _) => m.decl.name)
  let methods := sources.map fun (m, j) =>
    (⟨MemberName.seenFrom home.path m.decl.name.name, m.pointer, j, none⟩ : MethodDecl)
  modifyTable fun tb => tb.update name fun d => { d with methods := methods }

/-- Reads a type declaration. The name is known before what it stands for. -/
def readType (r : TypingRules) (env : Env) (i : Nat) (id : Ident) (params : List Expr)
    (isAlias : Bool) (type : Expr) : Check Entity := do
  if isAlias then
    require params.isEmpty (.badDecl id.pos)
    since env 9 id.pos
    return .type (← r.type env type)
  let name : TypeName := ⟨some env.home.path, id.name, ← fresh⟩
  announceType name [] type
  announce (.object i) (typeEntityOf name params)
  defineType r env env id name params type
  attachMethods env.home i name
  return typeEntityOf name params

/-! ## Functions -/

/-- Puts off the body of a function, if it has one. -/
def laterBody (env : Env) (owner : Node) (body : Stmt) : Check Unit :=
  if body.isAbsent then pure () else later (.body { env with owner := some owner } body)

/-- Reads a function declaration; its body is checked later. -/
def readFunc (r : TypingRules) (env : Env) (i : Nat) (f : FuncDecl) : Check Entity := do
  let known := fun params => announce (.object i) (.function (.func [] [] false) params)
  let (env, params) ← typeParams r (env.push []) known f.typeParams
  let (ps, rs) ← signature r env f.params f.results
  require (params.isEmpty || !f.body.isAbsent) (.badDecl f.name.pos)
  laterBody (← enterFunction env [] ps rs) (.object i) f.body
  return .function (funcType ps rs) params

/-! ## Variables -/

/-- The names that share one initial value depend on the first of them. -/
def dependOnFirst (first count : Nat) : Check Unit :=
  modify fun s => { s with
    edges := ((List.range count).drop 1).map (fun j => (.object (first + j), .object first)) ++ s.edges }

/-- Reads a variable declaration. A declared type is known before the initial value; the names that
share one value are read together. -/
def readVar (r : TypingRules) (env : Env) (i : Nat) (id : Ident) (type : Expr) (values : List Expr)
    (index count first : Nat) : Check Entity := do
  let target ← match type with
    | .absent => pure none
    | type => do
      let t ← varType r env type
      announce (.object i) (.global t)
      pure (some t)
  if values.length == count then
    match values[index]? with
    | some e => return .global (← initVariable env target (← exprTo r env target e))
    | none => throw (.badCount id.pos)
  else if values.isEmpty then
    match target with
    | some t => return .global t
    | none => throw (.badDecl id.pos)
  else
    if i == first then dependOnFirst first count
    match target with
    | some t =>
      if i == first then
        let _ ← initVariables r env id.pos (List.replicate count target) true values
      return .global t
    | none =>
      if i != first then
        let _ ← r.object env false first
        match ← progress? (.object i) with
        | some (.done e) => return e
        | _ => throw .cycle
      let types ← initVariables r env id.pos (List.replicate count target) true values
      for (t, j) in types.zipIdx do
        setProgress (.object (first + j)) (.done (.global t))
      match types[index]? with
      | some t => return .global t
      | none => throw (.badCount id.pos)

/-! ## The rule for names -/

/-- Reads the declaration of a name. -/
def readObject (r : TypingRules) (home : Home) (i : Nat) (o : PackageObject) : Check Entity := do
  let outer := Env.top home o.file none
  let owned := { outer with owner := some (.object i) }
  match o.decl with
  | .const type init iota =>
    let (t, c) ← constantDecl r { owned with iota := some iota } type init
    return .constant t c
  | .var type values index count first => readVar r owned i o.id type values index count first
  | .type params isAlias type => readType r outer i o.id params isAlias type
  | .func f => readFunc r outer i f

/-- The rule for the names of the package: each is read once, when it is first needed. `asType` tells
that a type is wanted, for which circles are judged. -/
def objectRule (r : TypingRules) (env : Env) (asType : Bool) (i : Nat) : Check Entity := do
  let node := Node.object i
  match ← progress? node, env.home.objects[i]? with
  | some (.done e), _ => return e
  | some (.active none), _ => throw .cycle
  | some (.active (some e)), _ =>
    let isType := match e with
      | .type _ | .generic _ => true
      | _ => false
    if isType && asType then require (mayRefer env node (← get).path) .cycle
    return e
  | none, none => throw .cycle
  | none, some o =>
    setProgress node (.active none)
    let e ← reading node (readObject r env.home i o)
    setProgress node (.done e)
    return e

/-! ## Methods -/

/-- A name for a type parameter that is left blank, which no source can hold. -/
def unreadable (i : Nat) : Text := utf8 " " ++ Text.ofNat i

/-- The type parameters that a receiver gives to its type, by name. -/
def receiverParams (args : List Expr) : Check (List Ident) :=
  args.zipIdx.mapM fun (a, i) => do
    match a with
    | .ident id => return if id.name == blank then { id with name := unreadable i } else id
    | e => throw (.badDecl e.pos)

/-- The type expression of a receiver with other names for its type parameters. -/
def renameReceiver (ids : List Ident) : Expr → Expr
  | .star pos x => .star pos (renameReceiver ids x)
  | .paren a x b => .paren a (renameReceiver ids x) b
  | .index x _ close => .index x (ids.map .ident) close
  | e => e

/-- The type parameters of a receiver take the constraints that the type declares. -/
def bindReceiver (r : TypingRules) (env : Env) (base : Option Ident) (serials : List Nat) :
    Check (List Nat) := do
  match base with
  | none => return []
  | some id =>
    match ← resolve r env true id with
    | .generic name =>
      let params := (((← table).decl? name).map (·.params)).getD []
      require (params.length ≤ serials.length) (.badDecl id.pos)
      if params.length == serials.length then
        let σ := params.zip (serials.map fun n => Ty.param n [])
        modifyTable fun tb => tb.bind ((params.zip serials).map fun (p, n) => (n, (tb.bound p).subst σ))
        modify fun s => { s with canon := serials.zip params ++ s.canon }
      return params
    | _ => return []

/-- The type of a method is known. -/
def setMethodType (m : MethodSource) (j : Nat) (t : Ty) : Check Unit := do
  let name? ← match m.base with
    | none => pure none
    | some i =>
      match ← progress? (.object i) with
      | some (.done (.type (.named n _))) => pure (some n)
      | some (.done (.generic n)) => pure (some n)
      | _ => pure none
  match name? with
  | none => pure ()
  | some name => modifyTable fun tb => tb.update name fun d => { d with
      methods := d.methods.map fun n => if n.source == j then { n with type := some t } else n }

/-- Reads a method declaration; its body is checked later. -/
def readMethod (r : TypingRules) (home : Home) (j : Nat) (m : MethodSource) : Check Unit := do
  let env := (Env.top home m.file none).push []
  match m.decl.receiver with
  | some [.field names type _] =>
    let (base, args) := receiverParts type
    let ids ← receiverParams args
    let serials ← ids.mapM fun _ => fresh
    let env ← (ids.zipIdx.zip serials).foldlM (fun env ((id, i), n) =>
      let name := if id.name == unreadable i then blank else id.name
      declare env id (.type (.param n name))) env
    let params ← if ids.isEmpty then pure [] else bindReceiver r env base serials
    let self ← varType r env (renameReceiver ids type)
    later (.receiver type.pos home.path (!ids.isEmpty) self)
    let (ps, rs) ← signature r env m.decl.params m.decl.results
    laterBody (← enterFunction env (names.map fun id => (id, self)) ps rs) (.method j) m.decl.body
    let back := serials.zip (params.map fun p => Ty.param p [])
    setMethodType m j ((funcType ps rs).subst back)
  | _ => throw (.badDecl m.decl.pos)

/-- The rule for methods: each is read once, when it is first needed. -/
def methodRule (r : TypingRules) (home : Home) (j : Nat) : Check Unit := do
  let node := Node.method j
  match ← progress? node, home.methods[j]? with
  | some (.done _), _ => pure ()
  | some (.active _), _ =>
    require (mayRefer (Env.top home 0 none) node (← get).path) .cycle
  | none, none => throw .cycle
  | none, some m =>
    let empty := Entity.function (.func [] [] false) []
    setProgress node (.active (some empty))
    setMethodType m j (.func [] [] false)
    reading node (readMethod r home j m)
    setProgress node (.done empty)

/-! ## All rules -/

/-- The rules with at most the given depth. -/
def rules : Nat → TypingRules
  | 0 =>
    ⟨fun _ _ _ => throw .tooDeep, fun _ _ => throw .tooDeep, fun _ _ _ => throw .tooDeep,
     fun _ _ => throw .tooDeep, fun _ _ _ => throw .tooDeep⟩
  | n + 1 =>
    ⟨fun env want e => exprRule (rules n) env want e,
     fun env e => typeRule (rules n) env e,
     fun env asType i => objectRule (rules n) env asType i,
     fun home j => methodRule (rules n) home j,
     fun env flow ss => blockRule (rules n) env flow ss⟩

end CaseCover.Check
