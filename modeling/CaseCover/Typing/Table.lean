import CaseCover.Typing.Type

/-!
# Declared types

The table of declared types says what each stands for, which type parameters it takes and which
methods it has, and it holds the constraints of type parameters. With it a type can be reduced to
its underlying type, which is never a declared type: the underlying type of a type parameter is its
constraint as an interface.
-/

namespace CaseCover

/-- A method of a declared type. Its type is in terms of the type's own parameters; it is missing
until the declaration `source` has been read. -/
structure MethodDecl where
  member : MemberName
  pointer : Bool
  source : Nat
  type : Option Ty

/-- A declared type: the parameters it takes, what it stands for and its methods. Before its
declaration has been read to the end it is not `complete`, and the definition has only the outermost
part. A type declared in a function may depend on the `ambient` type parameters of the function. -/
structure TypeDecl where
  name : TypeName
  params : List Nat
  definition : Option Ty
  complete : Bool
  methods : List MethodDecl
  ambient : List Nat

/-- A complete declaration of a type without parameters or methods. -/
def TypeDecl.plain (name : TypeName) (definition : Ty) : TypeDecl :=
  ⟨name, [], some definition, true, [], []⟩

/-- The declared types, and the constraints of type parameters. -/
structure TypeTable where
  decls : List TypeDecl
  bounds : List (Nat × Ty)

namespace TypeTable

/-- The table before any declaration: errors and the comparable constraint. -/
def initial : TypeTable :=
  ⟨[.plain ⟨none, "error", 0⟩ (.interface [⟨[], "Error"⟩] [.func [] [.basic .string] false] []),
    .plain ⟨none, "comparable", 1⟩ (.interface [] [] [Ty.comparable])], []⟩

/-- The declaration of a type. -/
def decl? (tb : TypeTable) (n : TypeName) : Option TypeDecl :=
  tb.decls.find? fun d => d.name.serial == n.serial

/-- The table with one more declaration. -/
def add (tb : TypeTable) (d : TypeDecl) : TypeTable := { tb with decls := d :: tb.decls }

/-- The table with one declaration changed. -/
def update (tb : TypeTable) (n : TypeName) (f : TypeDecl → TypeDecl) : TypeTable :=
  { tb with decls := tb.decls.map fun d => if d.name.serial == n.serial then f d else d }

/-- The table with more constraints. -/
def bind (tb : TypeTable) (bounds : List (Nat × Ty)) : TypeTable :=
  { tb with bounds := bounds ++ tb.bounds }

/-- The constraint of a type parameter as it was written. -/
def bound (tb : TypeTable) (serial : Nat) : Ty :=
  match tb.bounds.find? fun e => e.1 == serial with
  | some e => e.2
  | none => Ty.any

/-- What a declared type stands for. -/
def expand (tb : TypeTable) (n : TypeName) (args : List Ty) : Option Ty :=
  (tb.decl? n).bind fun d => d.definition.map (Ty.subst (d.params.zip args))

/-- Follows at most so many names until a type is reached that has none. -/
def follow (tb : TypeTable) : Nat → Ty → Option Ty
  | 0, _ => none
  | k + 1, .named n args => (tb.expand n args).bind (follow tb k)
  | _ + 1, t => some t

/-- The type that is reached when names are followed. -/
def unname (tb : TypeTable) (t : Ty) : Ty :=
  (tb.follow (tb.decls.length + 2) t).getD (.basic .invalid)

/-- The constraint of a type parameter as an interface. One that is no interface admits only the
types it lists. -/
def constraint (tb : TypeTable) (serial : Nat) : Ty :=
  let b := tb.bound serial
  match tb.unname b with
  | .interface ms ts es => .interface ms ts es
  | .param .. => Ty.any
  | .basic .invalid => Ty.any
  | _ => .interface [] [] [b]

/-- The underlying type. -/
def under (tb : TypeTable) (t : Ty) : Ty :=
  match t with
  | .param i _ => tb.constraint i
  | .named .. => tb.unname t
  | t => t

/-- The basic type that underlies a type. -/
def basic? (tb : TypeTable) (t : Ty) : Option Basic :=
  match tb.under t with
  | .basic b => some b
  | _ => none

/-- The type is a basic type with the property, or a declared type over one. -/
def is (tb : TypeTable) (p : Basic → Bool) (t : Ty) : Bool :=
  match tb.under t with
  | .basic b => p b
  | _ => false

/-- The type is an interface or a type parameter. -/
def isAbstract (tb : TypeTable) (t : Ty) : Bool :=
  match tb.under t with
  | .interface .. => true
  | _ => false

/-- The type is an interface, and no type parameter. -/
def isInterface (tb : TypeTable) (t : Ty) : Bool := !t.isParam && tb.isAbstract t

def isPointer (tb : TypeTable) (t : Ty) : Bool :=
  match tb.under t with
  | .pointer _ => true
  | _ => false

/-- Values of the type can be constants. -/
def isConstantType (tb : TypeTable) (t : Ty) : Bool := tb.is Basic.isConstant t

/-- The array that a type is or points to. -/
def arrayBehind (tb : TypeTable) (u : Ty) : Ty :=
  match u with
  | .pointer e =>
    match tb.under e with
    | .array n t => .array n t
    | _ => u
  | u => u

/-- All declared types up to the underlying one have been read to the end, following at most so many
names. -/
def completeWithin (tb : TypeTable) : Nat → Ty → Bool
  | k + 1, .named n _ =>
    match tb.decl? n with
    | some d => d.complete && (d.definition.map (completeWithin tb k)).getD true
    | none => true
  | _, _ => true

/-- What underlies the type is known in all its parts. -/
def isComplete (tb : TypeTable) (t : Ty) : Bool := tb.completeWithin (tb.decls.length + 2) t

end TypeTable

end CaseCover
