import CaseCover.Typing.Relation
import CaseCover.Typing.Represent

/-!
# Checking types

What names stand for, the scopes they are looked up in, and the state of a check. A check goes
through a package once and stops at the first fault. Declarations of the package are read when they
are first needed; what can only be judged when all of them are known is put off as a `Task`.

As with reading trees, the rules call each other in circles. They are written against a record
`TypingRules` of the recursive ones, and `Typing.Package` ties the knot.
-/

namespace CaseCover

/-- Why a package has no types. Type arguments that could only be found by matching types without end
are `unbounded`. -/
inductive TypeFault where
  | undefined (id : Ident)
  | redeclared (id : Ident)
  | unused (name : Text)
  | cycle
  | notType (pos : Pos)
  | notValue (pos : Pos)
  | badType (pos : Pos)
  | mismatch (pos : Pos)
  | overflow (pos : Pos)
  | divisionByZero (pos : Pos)
  | badOperand (pos : Pos)
  | badCall (pos : Pos)
  | badCount (pos : Pos)
  | notAssignable (pos : Pos)
  | noMember (sel : Ident)
  | duplicate (pos : Pos)
  | badDecl (pos : Pos)
  | badImport (path : Text)
  | badBranch (pos : Pos)
  | missingReturn (pos : Pos)
  | packageName (name : Text)
  | release (pos : Pos)
  | tooDeep
  | unbounded
deriving DecidableEq

/-- The functions that are part of the language. -/
inductive Builtin where
  | append | cap | clear | close | complex | copy | delete | imag | len | make | max | min | new
  | panic | print | println | real | recover
  | add | alignof | offsetof | sizeof | sliceOf | sliceData | stringOf | stringData
deriving DecidableEq

/-- What a name stands for. The serial number of a variable tells whether it has been used; the
number of a package tells whether its import has. The name of a declaration that is being read and
cannot be referred to yet is unfinished. -/
inductive Entity where
  | package (path : Text) (serial : Nat)
  | constant (type : Ty) (value : Const)
  | iota
  | type (type : Ty)
  | generic (name : TypeName)
  | variable (type : Ty) (serial : Nat)
  | global (type : Ty)
  | function (type : Ty) (params : List Nat)
  | builtin (b : Builtin)
  | nilValue
  | unfinished

/-- A name of a package with its position and what it stands for. -/
structure Declared where
  name : Text
  pos : Pos
  entity : Entity

/-- A checked package. -/
structure Package where
  path : Text
  name : Text
  scope : List Declared

namespace Package

/-- What a name of the package stands for. -/
def find? (p : Package) (name : Text) : Option Entity :=
  (p.scope.find? fun d => d.name == name).map (·.entity)

end Package

/-- The declaration of a name of a package. The names of a variable declaration share its values;
`index` is the place of the name among them and `first` the number of the first one. -/
inductive ObjectDecl where
  | const (type init : Expr) (iota : Nat)
  | var (type : Expr) (values : List Expr) (index count first : Nat)
  | type (params : List Expr) (isAlias : Bool) (type : Expr)
  | func (decl : FuncDecl)

/-- A declared name of the package that is checked. Names that cannot be referred to are not
visible. -/
structure PackageObject where
  id : Ident
  file : Nat
  visible : Bool
  decl : ObjectDecl

/-- A method declaration with the number of the declared type it belongs to, if it belongs to one,
and whether its receiver is a pointer. -/
structure MethodSource where
  base : Option Nat
  pointer : Bool
  file : Nat
  decl : FuncDecl

/-- A name that an import brings into a file. -/
structure Imported where
  name : Text
  serial : Nat
  entity : Entity

/-- What is fixed while a package is checked: its path, its declarations, the names imported into
each of its files, the release that each file is written in, and the packages that can be
imported. -/
structure Home where
  path : Text
  name : Text
  objects : List PackageObject
  methods : List MethodSource
  imports : List (List Imported)
  releases : List (Option Constraint.Release)
  packages : List Package

/-- A declaration that is read, and on which the initial value of another one can depend. -/
inductive Node where
  | object (index : Nat)
  | method (index : Nat)
deriving DecidableEq

/-- A place in the program: the names in scope, innermost block first, the declaration it belongs
to, the value of `iota`, the results of the function around it with their names, the release of the
file, and whether the place is in a list of type parameters. -/
structure Env where
  home : Home
  file : Nat
  frames : List (List (Text × Entity))
  owner : Option Node
  iota : Option Nat
  results : List Ty
  resultNames : List (Text × Nat)
  release : Option Constraint.Release
  inParams : Bool

namespace Env

/-- The environment at the top of a file. -/
def top (home : Home) (file : Nat) (owner : Option Node) : Env :=
  ⟨home, file, [], owner, none, [], [], (home.releases[file]?).join, false⟩

/-- The environment in a new block. -/
def push (env : Env) (names : List (Text × Entity)) : Env := { env with frames := names :: env.frames }

/-- The environment with one more name in the innermost block. -/
def bind (env : Env) (name : Text) (e : Entity) : Env :=
  match env.frames with
  | [] => { env with frames := [[(name, e)]] }
  | f :: fs => { env with frames := ((name, e) :: f) :: fs }

/-- What a name stands for in the innermost block. -/
def inBlock? (env : Env) (name : Text) : Option Entity :=
  (env.frames.head?.getD []).find? (fun e => e.1 == name) |>.map (·.2)

/-- What a name stands for inside the function. -/
def local? (env : Env) (name : Text) : Option Entity :=
  env.frames.findSome? fun f => (f.find? fun e => e.1 == name).map (·.2)

/-- What the imports of the file make of a name. -/
def imported? (env : Env) (name : Text) : Option Imported :=
  (env.home.imports[env.file]?.getD []).find? fun i => i.name == name

/-- The number of a visible declaration of the package. -/
def objectIndex? (env : Env) (name : Text) : Option Nat :=
  env.home.objects.findIdx? fun o => o.visible && o.id.name == name

/-- The type parameters in scope that are not blank. -/
def paramsInScope (env : Env) : List Nat :=
  env.frames.flatten.filterMap fun e =>
    match e.2 with
    | .type (.param n name) => if name == utf8 "_" then none else some n
    | _ => none

end Env

/-- What is judged once all declarations are known. -/
inductive Task where
  | body (env : Env) (stmt : Stmt)
  | ordinary (pos : Pos) (type : Ty)
  | comparable (pos : Pos) (type : Ty)
  | embeddable (pos : Pos) (type : Ty)
  | abstract (pos : Pos) (release : Option Constraint.Release) (type : Ty)
  | union (pos : Pos) (terms : List Term)
  | replaced (pos : Pos) (release : Option Constraint.Release) (params : List Nat) (args : List Ty)
  | applied (pos : Pos) (release : Option Constraint.Release) (name : TypeName) (args : List Ty)
  | receiver (pos : Pos) (home : Text) (generic : Bool) (type : Ty)
  | declared (pos : Pos) (name : TypeName)

/-- What is known about an expression, given by where it starts and ends. -/
structure Fact where
  start : Pos
  stop : Pos
  type : Ty
  value : Option Const
  shifted : Bool

/-- How far the reading of a declaration has come, and what is known of it meanwhile. -/
inductive Progress where
  | active (known : Option Entity)
  | done (e : Entity)

/-- A type parameter, or a type that depends on one, is part of what a type parameter is replaced by;
`grows` tells that it is not all of it. -/
structure Instantiation where
  source : Nat
  param : Nat
  grows : Bool
deriving DecidableEq

/-- The state of a check. `path` has the declarations that are being read, the last one first;
`acted` tells that an expression has been met that calls a function or receives a value; `canon`
gives the type parameters of receivers the names they have in the declaration of their type; `sound`
are declared types that have been seen not to contain themselves. -/
structure CheckState where
  table : TypeTable
  next : Nat
  progress : List (Node × Progress)
  path : List Node
  pending : List (Text × Nat)
  used : List Nat
  edges : List (Node × Node)
  tasks : List Task
  facts : List Fact
  acted : Bool
  instantiations : List Instantiation
  canon : List (Nat × Nat)
  sound : List Nat

/-- The state at the start of a check. -/
def CheckState.start (table : TypeTable) (next : Nat) : CheckState :=
  ⟨table, next, [], [], [], [], [], [], [], false, [], [], []⟩

/-- A check that may fail. -/
abbrev Check := StateT CheckState (Except TypeFault)

/-! ## Operands -/

/-- How the value of an expression can be used. -/
inductive Mode where
  | noValue
  | builtin (b : Builtin)
  | typeExpr
  | genericType (name : TypeName)
  | genericFunc (params : List Nat)
  | constant (c : Const)
  | variable
  | mapIndex
  | value
  | commaOk

/-- A checked expression. -/
structure Operand where
  mode : Mode
  type : Ty
  expr : Expr

namespace Operand

/-- The value of a constant operand. -/
def const? (x : Operand) : Option Const :=
  match x.mode with
  | .constant c => some c
  | _ => none

/-- The operand is the value nil. -/
def isNil (x : Operand) : Bool :=
  match x.mode, x.type with
  | .value, .basic .untypedNil => true
  | _, _ => false

/-- The operand is a type. -/
def isType (x : Operand) : Bool :=
  match x.mode with
  | .typeExpr => true
  | _ => false

/-- The operand is a variable, of which the address can be taken. -/
def isAddressable (x : Operand) : Bool :=
  match x.mode with
  | .variable => true
  | _ => false

def pos (x : Operand) : Pos := x.expr.pos

end Operand

/-- What an expression can stand for in place of a statement: nothing as a conversion or a mere
value, or an action. -/
inductive ExprKind where
  | conversion | value | action
deriving DecidableEq

/-- What the place of an expression offers: a function type that a generic function is assigned to,
the type of an element that is written without its own, and whether a generic function or type may
stand without arguments. -/
structure Want where
  target : Option Ty
  hint : Option Ty
  generic : Bool

/-- A place that offers nothing. -/
def Want.plain : Want := ⟨none, none, false⟩

/-- Where control can go from a statement. -/
structure Flow where
  canBreak : Bool
  canContinue : Bool
  canFall : Bool

/-- The flow inside a block that is not the last of a clause. -/
def Flow.inner (f : Flow) : Flow := { f with canFall := false }

/-- The recursive rules. -/
structure TypingRules where
  expr : Env → Want → Expr → Check (Operand × ExprKind)
  type : Env → Expr → Check Ty
  object : Env → Bool → Nat → Check Entity
  method : Home → Nat → Check Unit
  block : Env → Flow → List Stmt → Check Unit

namespace Check

/-- The declared types so far. -/
def table : Check TypeTable := do return (← get).table

/-- Changes the declared types. -/
def modifyTable (f : TypeTable → TypeTable) : Check Unit :=
  modify fun s => { s with table := f s.table }

/-- A number that has not been used. -/
def fresh : Check Nat := do
  let n := (← get).next
  modify fun s => { s with next := n + 1 }
  pure n

/-- Puts a judgement off. -/
def later (t : Task) : Check Unit := modify fun s => { s with tasks := t :: s.tasks }

/-- The condition holds, or the check fails. -/
def require (b : Bool) (f : TypeFault) : Check Unit := if b then pure () else throw f

/-- The release of the file has what came with a release. -/
def since (env : Env) (release : Constraint.Release) (pos : Pos) : Check Unit :=
  require (allows env.release release) (.release pos)

/-- A variable or an import has been used. -/
def use (serial : Nat) : Check Unit :=
  modify fun s => if s.used.contains serial then s else { s with used := serial :: s.used }

/-- A declaration refers to another one. -/
def depend (env : Env) (n : Node) : Check Unit :=
  match env.owner with
  | some o => modify fun s =>
    if s.edges.contains (o, n) then s else { s with edges := (o, n) :: s.edges }
  | none => pure ()

/-- A function is called or a value received. -/
def act : Check Unit := modify fun s => { s with acted := true }

/-- Runs a check apart: whether it acts is given beside its result, and not kept. -/
def apart {α : Type} (x : Check α) : Check (α × Bool) := do
  let before := (← get).acted
  modify fun s => { s with acted := false }
  let a ← x
  let acted := (← get).acted
  modify fun s => { s with acted := before }
  return (a, acted)

/-- Keeps what is known about an expression. -/
def record (e : Expr) (type : Ty) (value : Option Const) (shifted : Bool) : Check Unit :=
  modify fun s => { s with facts := ⟨e.pos, e.stop, type, value, shifted⟩ :: s.facts }

/-- Keeps what is known about a value. -/
def keep (x : Operand) : Check Unit :=
  match x.mode with
  | .noValue | .builtin _ | .typeExpr | .genericType _ | .genericFunc _ => pure ()
  | .constant c => record x.expr x.type (some c) false
  | _ => record x.expr x.type none false

/-- What is known about an expression. -/
def fact? (e : Expr) : Check (Option Fact) := do
  let start := e.pos
  let stop := e.stop
  return (← get).facts.find? fun f => f.start == start && f.stop == stop

/-- A new variable; it must be used when its name asks for it. -/
def newVariable (id : Ident) (type : Ty) (mustUse : Bool) : Check Entity := do
  let n ← fresh
  if mustUse then modify fun s => { s with pending := (id.name, n) :: s.pending }
  pure (.variable type n)

/-- The blank name. -/
def blank : Text := "_"

/-- Declares a name in the innermost block, where it must be new. -/
def declare (env : Env) (id : Ident) (e : Entity) : Check Env := do
  if id.name == blank then return env
  require (env.inBlock? id.name).isNone (.redeclared id)
  return env.bind id.name e

/-- No name occurs twice, blank ones apart. -/
def distinct : List Ident → Check Unit
  | [] => pure ()
  | id :: rest => do
    require (id.name == blank || !rest.any fun i => i.name == id.name) (.redeclared id)
    distinct rest

/-! ## Names -/

/-- The names that are known everywhere. -/
def predeclared : List (Text × Entity) :=
  let types : List (String × Basic) :=
    [("bool", .bool), ("int", .int), ("int8", .int8), ("int16", .int16), ("int32", .int32),
     ("int64", .int64), ("uint", .uint), ("uint8", .uint8), ("uint16", .uint16),
     ("uint32", .uint32), ("uint64", .uint64), ("uintptr", .uintptr), ("float32", .float32),
     ("float64", .float64), ("complex64", .complex64), ("complex128", .complex128),
     ("string", .string), ("byte", .uint8), ("rune", .int32)]
  let functions : List (String × Builtin) :=
    [("append", .append), ("cap", .cap), ("clear", .clear), ("close", .close),
     ("complex", .complex), ("copy", .copy), ("delete", .delete), ("imag", .imag), ("len", .len),
     ("make", .make), ("max", .max), ("min", .min), ("new", .new), ("panic", .panic),
     ("print", .print), ("println", .println), ("real", .real), ("recover", .recover)]
  types.map (fun e => (utf8 e.1, .type (.basic e.2))) ++
    functions.map (fun e => (utf8 e.1, .builtin e.2)) ++
    [(utf8 "any", .type Ty.any), (utf8 "error", .type Ty.error),
     (utf8 "comparable", .type Ty.comparable),
     (utf8 "true", .constant (.basic .untypedBool) (.bool true)),
     (utf8 "false", .constant (.basic .untypedBool) (.bool false)),
     (utf8 "iota", .iota), (utf8 "nil", .nilValue)]

/-- The package of functions that go below the type system. -/
def rawMemory : Package :=
  let functions : List (String × Builtin) :=
    [("Add", .add), ("Alignof", .alignof), ("Offsetof", .offsetof), ("Sizeof", .sizeof),
     ("Slice", .sliceOf), ("SliceData", .sliceData), ("String", .stringOf),
     ("StringData", .stringData)]
  ⟨"unsafe", "unsafe",
   ⟨"Pointer", 0, .type (.basic .rawPointer)⟩ ::
     functions.map fun e => ⟨utf8 e.1, 0, .builtin e.2⟩⟩

/-- What a name that is known everywhere stands for in a file. -/
def predeclared? (env : Env) (id : Ident) : Check (Option Entity) := do
  match predeclared.find? fun e => e.1 == id.name with
  | some (_, e) =>
    if id.name == utf8 "any" || id.name == utf8 "comparable" then since env 18 id.pos
    return some e
  | none => return none

/-- Only what is known everywhere gives a name its meaning. -/
def isFree (env : Env) (name : Text) : Bool :=
  (env.local? name).isNone && (env.imported? name).isNone && (env.objectIndex? name).isNone

/-- The name stands for nil. -/
def namesNil (env : Env) (name : Text) : Bool := name == utf8 "nil" && isFree env name

/-- The name stands for a constant. -/
def namesConstant (env : Env) (name : Text) : Bool :=
  let isConstant := fun (e : Entity) =>
    match e with
    | .constant .. | .iota => true
    | _ => false
  match env.local? name with
  | some e => isConstant e
  | none =>
    match env.imported? name with
    | some i => isConstant i.entity
    | none =>
      match env.objectIndex? name with
      | some i =>
        match env.home.objects[i]? with
        | some ⟨_, _, _, .const ..⟩ => true
        | _ => false
      | none => (predeclared.find? fun e => e.1 == name).any fun e => isConstant e.2

/-- What a name stands for: inside the function, among the imports of the file, in the package, or
everywhere. It must stand for something; `asType` tells that a type is wanted. -/
def resolve (r : TypingRules) (env : Env) (asType : Bool) (id : Ident) : Check Entity := do
  require (id.name != blank) (.undefined id)
  match env.local? id.name with
  | some .unfinished => throw .cycle
  | some e => return e
  | none =>
    match env.imported? id.name with
    | some i =>
      match i.entity with
      | .package .. => pure ()
      | _ => use i.serial
      return i.entity
    | none =>
      match env.objectIndex? id.name with
      | some i =>
        let e ← r.object env asType i
        match e with
        | .type _ | .generic _ => pure ()
        | _ => depend env (.object i)
        return e
      | none =>
        match ← predeclared? env id with
        | some e => return e
        | none => throw (.undefined id)

/-- The package that a name stands for, if it is the name of an import. -/
def packageNamed? (env : Env) (id : Ident) : Check (Option Package) := do
  match env.local? id.name, env.imported? id.name with
  | none, some ⟨_, _, .package path serial⟩ =>
    use serial
    if path == utf8 "unsafe" then return some rawMemory
    return env.home.packages.find? fun p => p.path == path
  | _, _ => return none

/-- The exported name of a package. -/
def qualified (p : Package) (sel : Ident) : Check Entity := do
  require (Text.isExported sel.name) (.undefined sel)
  match p.find? sel.name with
  | some e => pure e
  | none => throw (.undefined sel)

/-! ## Values -/

/-- The operand is a single value. -/
def singleValue (x : Operand) : Check Operand := do
  match x.mode with
  | .noValue | .builtin _ | .typeExpr | .genericType _ => throw (.notValue x.pos)
  | _ => pure ()
  match x.type with
  | .tuple _ => throw (.badCount x.pos)
  | _ => return x

/-- The value of an expression. -/
def expr (r : TypingRules) (env : Env) (e : Expr) : Check Operand := do
  singleValue (← r.expr env .plain e).1

/-- The value of an expression that is assigned to a variable of a type. -/
def exprTo (r : TypingRules) (env : Env) (target : Option Ty) (e : Expr) : Check Operand := do
  let tb ← table
  let func := target.bind fun t =>
    match tb.under t with
    | .func .. => some (tb.under t)
    | _ => none
  singleValue (← r.expr env { Want.plain with target := func } e).1

/-- The value of an element that may be written without its type. -/
def element (r : TypingRules) (env : Env) (hint : Ty) (e : Expr) : Check Operand := do
  singleValue (← r.expr env { Want.plain with hint := some hint } e).1

/-- A value or a type; `generic` allows generic ones without arguments. -/
def exprOrType (r : TypingRules) (env : Env) (generic : Bool) (e : Expr) : Check Operand := do
  let (x, _) ← r.expr env { Want.plain with generic := generic } e
  match x.mode, x.type with
  | .noValue, _ => throw (.notValue x.pos)
  | _, .tuple _ => throw (.badCount x.pos)
  | _, _ => return x

/-- The values of an expression that may be a call with several results. Where `flagOk`, a value that
may be missing comes with a flag that tells whether it is there. -/
def multiExpr (r : TypingRules) (env : Env) (flagOk : Bool) (e : Expr) : Check (List Operand) := do
  let (x, _) ← r.expr env .plain e
  match x.mode, x.type with
  | .value, .tuple ts => return ts.map fun t => ⟨.value, t, e⟩
  | .mapIndex, _ | .commaOk, _ =>
    if flagOk then return [x, ⟨.value, .basic .untypedBool, e⟩]
    return [x]
  | _, _ => return [← singleValue x]

/-- The values of expressions: one call with several results stands for all of them. -/
def exprList (r : TypingRules) (env : Env) : List Expr → Check (List Operand)
  | [e] => multiExpr r env false e
  | es => es.mapM (expr r env)

end Check

end CaseCover
