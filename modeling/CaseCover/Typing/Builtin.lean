import CaseCover.Typing.Index
import CaseCover.Typing.Layout

/-!
# Built-in functions

The functions that are part of the language, each with its own rule for arguments and result.
-/

namespace CaseCover.Check

/-- A call of the function can stand as a statement. -/
def builtinKind : Builtin → ExprKind
  | .clear | .close | .copy | .delete | .panic | .print | .println | .recover => .action
  | _ => .value

/-- The least number of arguments, and whether there may be more. -/
def builtinArity : Builtin → Nat × Bool
  | .print | .println => (0, true)
  | .recover => (0, false)
  | .append | .make | .max | .min => (1, true)
  | .complex | .copy | .delete | .add | .sliceOf | .stringOf => (2, false)
  | _ => (1, false)

/-- The call of a function has the right number of arguments. -/
def builtinCount (pos : Pos) (b : Builtin) (count : Nat) : Check Unit :=
  let (least, more) := builtinArity b
  require (least ≤ count && (more || count == least)) (.badCount pos)

/-! ## Numbers -/

/-- The real type of the parts of a complex type. -/
def partType? : Basic → Option Basic
  | .complex64 => some .float32
  | .complex128 => some .float64
  | .untypedComplex => some .untypedFloat
  | _ => none

/-- The complex type with parts of a real type. -/
def complexType? : Basic → Option Basic
  | .float32 => some .complex64
  | .float64 => some .complex128
  | .untypedFloat => some .untypedComplex
  | _ => none

/-- A part of a complex number. -/
def complexPart (e : Expr) (real : Bool) (x : Operand) : Check Operand := do
  let tb ← table
  let x ←
    if !x.type.isUntyped then pure x
    else if x.const?.isSome then
      pure (if tb.is Basic.isNumeric x.type then { x with type := .basic .untypedComplex } else x)
    else convertUntyped x (.basic .complex128)
  match (tb.basic? x.type).bind partType? with
  | none => throw (.badOperand x.pos)
  | some b =>
    match x.const?.bind Const.parts? with
    | some (re, im) => return ⟨.constant (.real (if real then re else im)), .basic b, e⟩
    | none => return result e (.basic b)

/-- A complex number from its parts. -/
def complexOf (e : Expr) (x y : Operand) : Check Operand := do
  let tb ← table
  let asFloat := fun (z : Operand) =>
    if (z.const?.bind Const.toReal?).isSome then { z with type := .basic .untypedFloat } else z
  let (x, y) ← match x.type.isUntyped, y.type.isUntyped with
    | false, false => pure (x, y)
    | true, false => do pure (← convertUntyped x y.type, y)
    | false, true => do pure (x, ← convertUntyped y x.type)
    | true, true =>
      if x.const?.isSome && y.const?.isSome then pure (asFloat x, asFloat y)
      else do pure (← convertUntyped x (.basic .float64), ← convertUntyped y (.basic .float64))
  require (tb.same x.type y.type) (.mismatch e.pos)
  match (tb.basic? x.type).bind complexType? with
  | none => throw (.badOperand e.pos)
  | some b =>
    match x.const?.bind Const.toReal?, y.const?.bind Const.toReal? with
    | some re, some im => return ⟨.constant (.complex re im), .basic b, e⟩
    | _, _ => return result e (.basic b)

/-- The least or greatest of two operands: `op` tells when the second one takes the place of the
first. -/
def extremeOf (op : Op) (x y : Operand) : Check Operand := do
  require ((← table).all Basic.isOrdered y.type) (.badOperand y.pos)
  let (x, y) ← matchTypes x y
  require ((← table).same x.type y.type) (.mismatch y.pos)
  match x.const?, y.const? with
  | some a, some b => return if (Const.compare (relation op) b a).getD false then y else x
  | _, _ => return { x with mode := .value }

/-- The least or greatest of operands. -/
def extreme (env : Env) (e : Expr) (op : Op) (x : Operand) (rest : List Operand) : Check Operand := do
  require ((← table).all Basic.isOrdered x.type) (.badOperand x.pos)
  let y ← rest.foldlM (extremeOf op) x
  let y ← match y.const? with
    | some _ => pure y
    | none => assign env { y with mode := .value } (some Ty.any)
  for a in x :: rest do
    settle y.type true a.expr
  return { y with expr := e }

/-! ## Collections -/

/-- The length of a value of an underlying type can be asked for, or its capacity. -/
def hasLength (tb : TypeTable) (b : Builtin) (u : Ty) : Bool :=
  match tb.arrayBehind u with
  | .basic k => b == .len && k.isString
  | .slice _ | .array .. | .chan .. => true
  | .mapping .. => b == .len
  | _ => false

/-- The length or capacity of a value. It is known for constant texts, and for arrays if finding the
array takes no action. -/
def lengthOf (e : Expr) (b : Builtin) (acted : Bool) (x : Operand) : Check Operand := do
  let tb ← table
  let int : Ty := .basic .int
  require (tb.underAll x.type (hasLength tb b)) (.badOperand x.pos)
  match x.const?.bind Const.str?, tb.arrayBehind (tb.under x.type) with
  | some s, _ => return ⟨.constant (.int s.length), int, e⟩
  | none, .array n _ => return if acted then result e int else ⟨.constant (.int n), int, e⟩
  | none, _ => return result e int

/-- The element type of a slice. -/
def sliceElement (x : Operand) : Check Ty := do
  match (← table).core x.type with
  | some (.slice e) => return e
  | _ => throw (.badOperand x.pos)

/-- Operands are added to a slice. The bytes of a text can be added to a slice of bytes. -/
def appendTo (env : Env) (e : Expr) (spread : Option Nat) (x : Operand) (rest : List Operand) :
    Check Operand := do
  let tb ← table
  let element ← sliceElement x
  let isBytes ← isAssignable env x (.slice (.basic .uint8))
  let isText := fun (y : Operand) => (tb.coreText y.type).any (tb.is Basic.isString)
  match spread, rest with
  | some count, [y] =>
    if !(isBytes && isText y) then
      require (count ≠ 1) (.badCall e.pos)
      let _ ← assign env y (some (.slice element))
  | some _, _ => throw (.badCount e.pos)
  | none, rest =>
    for y in rest do
      let _ ← assign env y (some element)
  return result e x.type

/-- The elements of a slice or the bytes of a text are copied into a slice. -/
def copyTo (e : Expr) (x y : Operand) : Check Operand := do
  let tb ← table
  let element ← sliceElement x
  match tb.coreText y.type with
  | some (.slice t) => require (tb.same element t) (.mismatch e.pos)
  | some u =>
    require (tb.is Basic.isString u && tb.same element (.basic .uint8)) (.badOperand e.pos)
  | none => throw (.badOperand y.pos)
  return result e (.basic .int)

/-- The one key type of all maps that a type stands for. -/
def keyOf (x : Operand) : Check Ty := do
  let tb ← table
  let keys := (tb.unders x.type).map fun u =>
    match u with
    | .mapping k _ => some k
    | _ => none
  match keys with
  | some k :: rest =>
    require (rest.all fun j => j.any (tb.same k)) (.badOperand x.pos)
    return k
  | _ => throw (.badOperand x.pos)

/-! ## Memory -/

/-- The size or the alignment of an operand. -/
def sizeOf (env : Env) (e : Expr) (b : Builtin) (x : Operand) : Check Operand := do
  let x ← assign env x none
  let tb ← table
  if tb.varies x.type then return result e (.basic .uintptr)
  let l := tb.layout x.type
  match if b == .alignof then some l.align else l.size with
  | some n => return ⟨.constant (.int n), .basic .uintptr, e⟩
  | none => throw (.overflow x.pos)

/-- The structure that a type is or points to. -/
def structBehind (tb : TypeTable) (t : Ty) : Ty :=
  match tb.under t with
  | .pointer e =>
    match tb.under e with
    | .struct .. => e
    | _ => t
  | _ => t

/-- Where a field begins in its structure. -/
def offsetOf (r : TypingRules) (env : Env) (e arg : Expr) : Check Operand := do
  match arg.unparen with
  | .selector x sel =>
    let x ← expr r env x
    let tb ← table
    let base := structBehind tb x.type
    match tb.select? base false (MemberName.seenFrom env.home.path sel.name) with
    | some ⟨.field _, path, false⟩ =>
      if tb.varies base then return result e (.basic .uintptr)
      match tb.offset? base path with
      | some n => return ⟨.constant (.int n), .basic .uintptr, e⟩
      | none => throw (.overflow arg.pos)
    | _ => throw (.noMember sel)
  | _ => throw (.badOperand arg.pos)

/-! ## Calls -/

/-- A value of a type with the given sizes. -/
def makeOf (r : TypingRules) (env : Env) (e : Expr) (t : Ty) (sizes : List Expr) : Check Operand := do
  let least ← match (← table).core t with
    | some (.slice _) => pure 1
    | some (.mapping ..) | some (.chan ..) => pure 0
    | _ => throw (.badOperand e.pos)
  require (least ≤ sizes.length && sizes.length ≤ least + 1) (.badCount e.pos)
  match ← sizes.mapM (index r env none) with
  | [some n, some m] => require (n ≤ m) (.badOperand e.pos)
  | _ => pure ()
  return result e t

/-- The release that a function came with. -/
def builtinSince : Builtin → Constraint.Release
  | .add | .sliceOf => 17
  | .sliceData | .stringOf | .stringData => 20
  | .clear | .max | .min => 21
  | _ => 0

/-- A call of a built-in function with checked arguments. `spread` has the number of arguments as
they are written, if dots follow the last one; `acted` tells that finding the arguments took an
action. -/
def valueCall (env : Env) (e : Expr) (b : Builtin) (spread : Option Nat) (acted : Bool)
    (args : List Operand) : Check Operand := do
  let tb ← table
  let raw : Ty := .basic .rawPointer
  let bytePointer : Ty := .pointer (.basic .uint8)
  since env (builtinSince b) e.pos
  match b, args with
  | .append, x :: rest => appendTo env e spread x rest
  | .len, [x] | .cap, [x] => lengthOf e b acted x
  | .clear, [x] =>
    let ok := tb.underAll x.type fun u =>
      match u with
      | .slice _ | .mapping .. => true
      | _ => false
    require ok (.badOperand x.pos)
    return noResult e
  | .close, [x] =>
    let ok := tb.underAll x.type fun u =>
      match u with
      | .chan dir _ => dir ≠ .receive
      | _ => false
    require ok (.badOperand x.pos)
    return noResult e
  | .complex, [x, y] => complexOf e x y
  | .real, [x] => complexPart e true x
  | .imag, [x] => complexPart e false x
  | .copy, [x, y] => copyTo e x y
  | .delete, [x, k] =>
    let _ ← assign env k (some (← keyOf x))
    return noResult e
  | .max, x :: rest => extreme env e .gtr x rest
  | .min, x :: rest => extreme env e .lss x rest
  | .panic, [x] =>
    record e (.tuple []) none false
    let _ ← assign env x (some Ty.any)
    return noResult e
  | .print, xs | .println, xs =>
    for x in xs do
      let _ ← assign env x none
    return noResult e
  | .recover, [] => return result e Ty.any
  | .sizeof, [x] | .alignof, [x] => sizeOf env e b x
  | .add, [x, n] =>
    let _ ← assign env x (some raw)
    let _ ← indexOperand true n
    return result e raw
  | .sliceOf, [x, n] =>
    match tb.core x.type with
    | some (.pointer t) =>
      let _ ← indexOperand false n
      return result e (.slice t)
    | _ => throw (.badOperand x.pos)
  | .sliceData, [x] => return result e (.pointer (← sliceElement x))
  | .stringOf, [x, n] =>
    let _ ← assign env x (some bytePointer)
    let _ ← indexOperand false n
    return result e (.basic .string)
  | .stringData, [x] =>
    let _ ← assign env x (some (.basic .string))
    return result e bytePointer
  | _, _ => throw (.badCount e.pos)

/-- A call of a built-in function. A result that is not constant takes an action. -/
def builtinCall (r : TypingRules) (env : Env) (e : Expr) (b : Builtin) (args : List Expr)
    (spread : Bool) : Check Operand := do
  require (!spread || b == .append) (.badCall e.pos)
  let x ← match b, args with
    | .make, type :: sizes => do makeOf r env e (← varType r env type) sizes
    | .new, [type] => do pure (result e (.pointer (← varType r env type)))
    | .offsetof, [arg] => offsetOf r env e arg
    | .make, _ | .new, _ | .offsetof, _ => throw (.badCount e.pos)
    | b, args => do
      let check := do
        let xs ← exprList r env args
        builtinCount e.pos b xs.length
        return xs
      let (xs, acted) ← if b == .len || b == .cap then apart check else do pure (← check, false)
      valueCall env e b (if spread then some args.length else none) acted xs
  if x.const?.isNone then act
  return x

end CaseCover.Check
