import CaseCover.Source.Tree
import CaseCover.Text.Letter

/-!
# Types

The types of expressions. A declared type is known by its name and a serial number, so two
declarations of one name are two types; what it stands for is kept in a table beside the types
(`Typing.Table`). All other types are known by their parts. Two types that are built alike are the
same (`Ty.same`); interfaces may be the same though they are built differently, which
`Typing.TypeSet` decides.
-/

namespace CaseCover

/-- The basic types, and the types of untyped constants. -/
inductive Basic where
  | invalid
  | bool
  | int | int8 | int16 | int32 | int64
  | uint | uint8 | uint16 | uint32 | uint64 | uintptr
  | float32 | float64 | complex64 | complex128
  | string | rawPointer
  | untypedBool | untypedInt | untypedRune | untypedFloat | untypedComplex | untypedString
  | untypedNil
deriving DecidableEq

namespace Basic

def isBoolean : Basic → Bool
  | .bool | .untypedBool => true
  | _ => false

def isUnsigned : Basic → Bool
  | .uint | .uint8 | .uint16 | .uint32 | .uint64 | .uintptr => true
  | _ => false

def isInteger : Basic → Bool
  | .int | .int8 | .int16 | .int32 | .int64 | .untypedInt | .untypedRune => true
  | b => b.isUnsigned

def isFloat : Basic → Bool
  | .float32 | .float64 | .untypedFloat => true
  | _ => false

def isComplex : Basic → Bool
  | .complex64 | .complex128 | .untypedComplex => true
  | _ => false

def isNumeric (b : Basic) : Bool := b.isInteger || b.isFloat || b.isComplex

def isString : Basic → Bool
  | .string | .untypedString => true
  | _ => false

def isUntyped : Basic → Bool
  | .untypedBool | .untypedInt | .untypedRune | .untypedFloat | .untypedComplex
  | .untypedString | .untypedNil => true
  | _ => false

/-- Values of the type are ordered. -/
def isOrdered (b : Basic) : Bool := b.isInteger || b.isFloat || b.isString

/-- The type has constants. -/
def isConstant (b : Basic) : Bool := b.isBoolean || b.isNumeric || b.isString

/-- The width of an integer type in bits; 0 for all others. -/
def bits : Basic → Nat
  | .int8 | .uint8 => 8
  | .int16 | .uint16 => 16
  | .int32 | .uint32 => 32
  | .int | .int64 | .uint | .uint64 | .uintptr => 64
  | _ => 0

/-- The type an untyped constant gets when nothing else decides. -/
def settled : Basic → Basic
  | .untypedBool => .bool
  | .untypedInt => .int
  | .untypedRune => .int32
  | .untypedFloat => .float64
  | .untypedComplex => .complex128
  | .untypedString => .string
  | b => b

/-- The order of the untyped number types: a later one holds the values of an earlier one. -/
def rank : Basic → Nat
  | .untypedInt => 1
  | .untypedRune => 2
  | .untypedFloat => 3
  | .untypedComplex => 4
  | _ => 0

/-- The untyped type that holds the values of two untyped types. -/
def join (a b : Basic) : Option Basic :=
  if a = b then some a
  else if a.rank ≠ 0 && b.rank ≠ 0 then some (if a.rank < b.rank then b else a)
  else none

end Basic

/-- The name of a declared type: the package that declares it, if it belongs to one, and a number
that tells declarations of the same name apart. -/
structure TypeName where
  home : Option Text
  name : Text
  serial : Nat
deriving DecidableEq

/-- The name of a field or method. Names that are not exported belong to a package. -/
structure MemberName where
  home : Text
  name : Text
deriving DecidableEq

namespace MemberName

/-- The name of a member as a package sees it. -/
def seenFrom (home name : Text) : MemberName :=
  if Text.isExported name then ⟨[], name⟩ else ⟨home, name⟩

end MemberName

/-- A field of a structure without its type. -/
structure FieldName where
  member : MemberName
  embedded : Bool
  tag : Text
deriving DecidableEq

/-- Types. The fields of a structure and the methods of an interface stand in two lists, one of
names and one of types. An interface has its methods in the order of their names, and embeds other
types; a union lists types, each alone or with all types that it underlies. -/
inductive Ty where
  | basic (b : Basic)
  | named (name : TypeName) (args : List Ty)
  | param (serial : Nat) (name : Text)
  | pointer (elem : Ty)
  | slice (elem : Ty)
  | array (length : Nat) (elem : Ty)
  | mapping (key elem : Ty)
  | chan (dir : ChanDir) (elem : Ty)
  | func (params results : List Ty) (variadic : Bool)
  | struct (fields : List FieldName) (types : List Ty)
  | interface (methods : List MemberName) (types embedded : List Ty)
  | union (tildes : List Bool) (types : List Ty)
  | tuple (parts : List Ty)

instance : Inhabited Ty := ⟨.basic .invalid⟩

namespace Ty

mutual

/-- Two types are built alike. -/
def same : Ty → Ty → Bool
  | .basic a, .basic b => a == b
  | .named m as, .named n bs => m == n && sameAll as bs
  | .param i _, .param j _ => i == j
  | .pointer a, .pointer b => same a b
  | .slice a, .slice b => same a b
  | .array m a, .array n b => m == n && same a b
  | .mapping a b, .mapping c d => same a c && same b d
  | .chan d a, .chan e b => d == e && same a b
  | .func ps rs v, .func qs ss w => v == w && sameAll ps qs && sameAll rs ss
  | .struct fs as, .struct gs bs => fs == gs && sameAll as bs
  | .interface ms as es, .interface ns bs fs => ms == ns && sameAll as bs && sameAll es fs
  | .union us as, .union vs bs => us == vs && sameAll as bs
  | .tuple as, .tuple bs => sameAll as bs
  | _, _ => false

/-- Two lists of types are built alike. -/
def sameAll : List Ty → List Ty → Bool
  | [], [] => true
  | a :: as, b :: bs => same a b && sameAll as bs
  | _, _ => false

end

mutual

/-- The type with types in place of type parameters. -/
def subst (σ : List (Nat × Ty)) : Ty → Ty
  | .basic b => .basic b
  | .named n args => .named n (substAll σ args)
  | .param i n =>
    match σ.find? fun e => e.1 == i with
    | some e => e.2
    | none => .param i n
  | .pointer a => .pointer (subst σ a)
  | .slice a => .slice (subst σ a)
  | .array n a => .array n (subst σ a)
  | .mapping a b => .mapping (subst σ a) (subst σ b)
  | .chan d a => .chan d (subst σ a)
  | .func ps rs v => .func (substAll σ ps) (substAll σ rs) v
  | .struct fs as => .struct fs (substAll σ as)
  | .interface ms as es => .interface ms (substAll σ as) (substAll σ es)
  | .union us as => .union us (substAll σ as)
  | .tuple as => .tuple (substAll σ as)

/-- The types of a list with types in place of type parameters. -/
def substAll (σ : List (Nat × Ty)) : List Ty → List Ty
  | [] => []
  | a :: as => subst σ a :: substAll σ as

end

mutual

/-- The serial numbers of the type parameters in a type. -/
def paramsIn : Ty → List Nat
  | .basic _ => []
  | .named _ args => paramsInAll args
  | .param i _ => [i]
  | .pointer a => paramsIn a
  | .slice a => paramsIn a
  | .array _ a => paramsIn a
  | .mapping a b => paramsIn a ++ paramsIn b
  | .chan _ a => paramsIn a
  | .func ps rs _ => paramsInAll ps ++ paramsInAll rs
  | .struct _ as => paramsInAll as
  | .interface _ as es => paramsInAll as ++ paramsInAll es
  | .union _ as => paramsInAll as
  | .tuple as => paramsInAll as

/-- The serial numbers of the type parameters in a list of types. -/
def paramsInAll : List Ty → List Nat
  | [] => []
  | a :: as => paramsIn a ++ paramsInAll as

end

mutual

/-- The declared types in a type, from left to right. -/
def namesIn : Ty → List TypeName
  | .basic _ => []
  | .named n args => n :: namesInAll args
  | .param _ _ => []
  | .pointer a => namesIn a
  | .slice a => namesIn a
  | .array _ a => namesIn a
  | .mapping a b => namesIn a ++ namesIn b
  | .chan _ a => namesIn a
  | .func ps rs _ => namesInAll ps ++ namesInAll rs
  | .struct _ as => namesInAll as
  | .interface _ as es => namesInAll as ++ namesInAll es
  | .union _ as => namesInAll as
  | .tuple as => namesInAll as

/-- The declared types in a list of types. -/
def namesInAll : List Ty → List TypeName
  | [] => []
  | a :: as => namesIn a ++ namesInAll as

end

/-- The interface that every type implements. -/
def any : Ty := .interface [] [] []

/-- The type of errors. -/
def error : Ty := .named ⟨none, "error", 0⟩ []

/-- The constraint of types whose values can be compared. -/
def comparable : Ty := .named ⟨none, "comparable", 1⟩ []

/-- The type has a name: a basic type, a declared type or a type parameter. -/
def hasName : Ty → Bool
  | .basic _ | .named _ _ | .param _ _ => true
  | _ => false

def isParam : Ty → Bool
  | .param _ _ => true
  | _ => false

/-- The type is a declared type. -/
def isNamed : Ty → Bool
  | .named _ _ => true
  | _ => false

/-- The type is neither declared nor a type parameter: it is known by its parts. -/
def isLiteral : Ty → Bool
  | .named _ _ | .param _ _ => false
  | _ => true

/-- The type behind a pointer, and whether there was one. -/
def deref : Ty → Ty × Bool
  | .pointer e => (e, true)
  | t => (t, false)

/-- A type parameter of the list occurs in the type. -/
def mentions (params : List Nat) (t : Ty) : Bool := t.paramsIn.any params.contains

def isUntyped : Ty → Bool
  | .basic b => b.isUntyped
  | _ => false

/-- The type an untyped constant of the type gets when nothing else decides. -/
def settled : Ty → Ty
  | .basic b => .basic b.settled
  | t => t

/-- The values of a result list: one type stands for itself. -/
def ofResults : List Ty → Ty
  | [t] => t
  | ts => .tuple ts

end Ty

end CaseCover
