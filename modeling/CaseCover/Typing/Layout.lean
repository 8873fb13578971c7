import CaseCover.Typing.TypeSet

/-!
# Sizes in memory

How many bytes values of a type take, on what multiples they start, and where the fields of a
structure begin. A size that a signed word cannot hold is no size: the type is too large.
-/

namespace CaseCover

/-- The least multiple of a number that is not below another one. -/
def roundUp (n align : Nat) : Nat := (n + align - 1) / align * align

/-- The size of values in bytes, if it is not too large, and what their addresses are multiples
of. -/
structure Layout where
  size : Option Nat
  align : Nat
deriving DecidableEq

namespace Layout

/-- The greatest size. -/
def limit : Nat := 2 ^ 63 - 1

/-- A size within the limit. -/
def bounded (n : Nat) : Option Nat := if n ≤ limit then some n else none

/-- A word. -/
def word : Layout := ⟨some 8, 8⟩

/-- So many words. -/
def words (n : Nat) : Layout := ⟨some (8 * n), 8⟩

/-- The layout of a basic type. -/
def ofBasic : Basic → Layout
  | .bool | .int8 | .uint8 => ⟨some 1, 1⟩
  | .int16 | .uint16 => ⟨some 2, 2⟩
  | .int32 | .uint32 | .float32 => ⟨some 4, 4⟩
  | .complex64 => ⟨some 8, 4⟩
  | .complex128 | .string => words 2
  | _ => word

/-- So many values one after the other. An array without elements takes no place, however large
they are. -/
def repeated (n : Nat) (l : Layout) : Layout :=
  ⟨if n = 0 then some 0 else l.size.bind fun s => bounded (n * s), l.align⟩

/-- Where the fields of a structure begin, and where the first one after them could. -/
def offsetsFrom (start : Option Nat) : List Layout → List (Option Nat) × Option Nat
  | [] => ([], start)
  | l :: ls =>
    let here := start.bind fun n => bounded (roundUp n l.align)
    let next := here.bind fun n => l.size.bind fun s => bounded (n + s)
    let (rest, stop) := offsetsFrom next ls
    (here :: rest, stop)

/-- The place of a structure's last field: a field without size at the end of a structure with a size
takes one byte, so that its address lies inside. -/
def lastSize (offset size : Nat) : Nat := if 0 < offset && size == 0 then 1 else size

/-- The layout of a structure with the given fields. -/
def ofFields (ls : List Layout) : Layout :=
  let align := ls.foldl (fun a l => max a l.align) 1
  match ls.getLast?, (offsetsFrom (some 0) ls).1.getLast? with
  | some l, some offset =>
    ⟨offset.bind fun n => l.size.bind fun s => bounded (roundUp (n + lastSize n s) align), align⟩
  | _, _ => ⟨some 0, align⟩

end Layout

namespace TypeTable

/-- The layout of a type, going at most so deep. -/
def layoutWithin (tb : TypeTable) : Nat → Ty → Layout
  | 0, _ => ⟨none, 1⟩
  | k + 1, t =>
    match tb.under t with
    | .basic b => .ofBasic b
    | .slice _ => .words 3
    | .interface .. => .words 2
    | .array n e => .repeated n (layoutWithin tb k e)
    | .struct _ ts => .ofFields (ts.map fun u => layoutWithin tb k u)
    | _ => .word

/-- The layout of a type. -/
def layout (tb : TypeTable) (t : Ty) : Layout := tb.layoutWithin depth t

/-- Where the field begins that a way through structures leads to. -/
def offset? (tb : TypeTable) (t : Ty) : List Nat → Option Nat
  | [] => some 0
  | i :: path =>
    match tb.under t with
    | .struct _ ts => do
      let here ← ((Layout.offsetsFrom (some 0) (ts.map tb.layout)).1[i]?).join
      let rest ← offset? tb (ts[i]?.getD t) path
      Layout.bounded (here + rest)
    | _ => none

/-- The size of a type depends on a type parameter, going at most so deep. -/
def variesWithin (tb : TypeTable) : Nat → List Ty → Ty → Bool
  | 0, _, _ => false
  | k + 1, opened, t =>
    if t.isParam then true
    else if t.isNamed && opened.any fun u => u.same t then false
    else
      let opened := if t.isNamed then t :: opened else opened
      match tb.under t with
      | .array _ e => variesWithin tb k opened e
      | .struct _ ts => ts.any fun u => variesWithin tb k opened u
      | _ => false

/-- The size of a type depends on a type parameter. -/
def varies (tb : TypeTable) (t : Ty) : Bool := tb.variesWithin depth [] t

end TypeTable

end CaseCover
