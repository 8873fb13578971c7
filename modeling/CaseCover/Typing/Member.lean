import CaseCover.Typing.TypeSet

/-!
# Members

A selector finds a field or a method of a name in a type, in the types embedded in it, and so on. The
member at the least depth counts, if it is the only one there. The way to it is a list of positions
of fields; it is indirect when it goes through a pointer.
-/

namespace CaseCover

/-- What a selector finds. A method belongs to a declared type, with its arguments and the number of
the method's declaration, or to an interface. Its type is missing as long as its declaration has not
been read. -/
inductive Member where
  | field (type : Ty)
  | method (type : Option Ty) (pointer : Bool) (owner : Option (TypeName × List Ty × Nat))

/-- A member with the way to it. -/
structure Selection where
  member : Member
  path : List Nat
  indirect : Bool

namespace Selection

/-- The type of a method, whose receiver needs no address that cannot be taken. -/
def methodType? (s : Selection) : Option (Option Ty) :=
  match s.member with
  | .method t _ _ => some t
  | .field _ => none

end Selection

namespace TypeTable

/-- A type in which members are looked up: the way to it, whether that goes through a pointer, and
whether the type was met more than once at its depth. -/
structure Site where
  type : Ty
  path : List Nat
  indirect : Bool
  multiple : Bool

/-- The method of a name that is declared for a type. -/
def declaredMethod? (tb : TypeTable) (name : MemberName) : Ty → Option Member
  | .named n args => do
    let d ← tb.decl? n
    let m ← d.methods.find? fun m => m.member == name
    return .method (m.type.map (Ty.subst (d.params.zip args))) m.pointer (some (n, args, m.source))
  | _ => none

/-- The member of a name in one type: a declared method, a field of a structure or a method of an
interface. -/
def memberAt? (tb : TypeTable) (name : MemberName) (s : Site) : Option Selection :=
  match tb.declaredMethod? name s.type with
  | some m => some ⟨m, s.path, s.indirect⟩
  | none =>
    match tb.under s.type with
    | .struct fs ts => do
      let i ← fs.findIdx? fun f => f.member == name
      let t ← ts[i]?
      return ⟨.field t, s.path ++ [i], s.indirect⟩
    | .interface .. => do
      let m ← (tb.typeSet s.type).methods.find? fun m => m.1 == name
      return ⟨.method (some m.2) false none, s.path, s.indirect⟩
    | _ => none

/-- The types embedded in a structure. -/
def embeddedIn (tb : TypeTable) (s : Site) : List Site :=
  match tb.under s.type with
  | .struct fs ts => (fs.zip ts).zipIdx.filterMap fun ((f, u), i) =>
    if f.embedded then
      let (e, p) := u.deref
      some ⟨e, s.path ++ [i], s.indirect || p, s.multiple⟩
    else none
  | _ => []

/-- Sites of one type become one. -/
def consolidate (tb : TypeTable) (sites : List Site) : List Site :=
  sites.foldl (fun acc s =>
    if acc.any fun a => tb.same a.type s.type then
      acc.map fun a => if tb.same a.type s.type then { a with multiple := true } else a
    else acc ++ [s]) []

/-- The member found at the least depth, if it is the only one there. `seen` are the declared types
met at less depth. -/
def findFrom (tb : TypeTable) (name : MemberName) : Nat → List Ty → List Site → Option Selection
  | 0, _, _ => none
  | k + 1, seen, sites =>
    let sites := sites.filter fun s => !(s.type.isNamed && seen.any fun t => tb.same t s.type)
    if sites.isEmpty then none
    else
      match sites.filterMap fun s => (tb.memberAt? name s).map fun m => (m, s.multiple) with
      | [] =>
        let seen := (sites.map (·.type)).filter Ty.isNamed ++ seen
        findFrom tb name k seen (tb.consolidate (sites.flatMap tb.embeddedIn))
      | [(m, false)] => some m
      | _ => none

/-- The member of a name in a type that is no declared pointer type. A method with a pointer receiver
needs a pointer on the way or a value that has an address. -/
def selectPlain? (tb : TypeTable) (t : Ty) (addressable : Bool) (name : MemberName) :
    Option Selection :=
  let (e, p) := t.deref
  if name.name == utf8 "_" || (p && tb.isAbstract e) then none
  else do
    let s ← tb.findFrom name depth [] [⟨e, [], p, false⟩]
    match s.member with
    | .method _ pointer _ => if pointer && !s.indirect && !addressable then none else some s
    | .field _ => some s

/-- The member of a name that a selector on a type finds. A declared pointer type has no methods. -/
def select? (tb : TypeTable) (t : Ty) (addressable : Bool) (name : MemberName) : Option Selection :=
  match t, tb.under t with
  | .named .., .pointer e => do
    let s ← tb.selectPlain? (.pointer e) false name
    match s.member with
    | .field _ => some s
    | .method .. => none
  | t, _ => tb.selectPlain? t addressable name

end TypeTable

end CaseCover
