import CaseCover.Config.Data
import CaseCover.Const.Printed
import CaseCover.Text.Base64
import CaseCover.Yaml.Node

/-!
# What a scalar means

A scalar without quotes and without a tag means what it looks like: nothing, a truth value, an
integer, a floating point number, a point in time, or else a text. A tag that asks for something
that the scalar does not look like is a fault; only integers may stand for floating point numbers.
-/

namespace CaseCover.Yaml

/-! ## Numbers -/

/-- The value of a run of digits with a mark for its base: `0x`, `0o`, `0b`, or a leading zero for
octal numbers. -/
def magnitude (t : Text) : Option Nat :=
  match t with
  | 0x30 :: m :: d :: rest =>
    let m' := m ||| 0x20
    if m' == 0x78 then Text.toNat? 16 (d :: rest)
    else if m' == 0x6F then Text.toNat? 8 (d :: rest)
    else if m' == 0x62 then Text.toNat? 2 (d :: rest)
    else Text.toNat? 8 (m :: d :: rest)
  | [0x30, d] => Text.toNat? 8 [d]
  | t => Text.toNat? 10 t

/-- The sign of a number, if it has one, and the rest. -/
def splitSign (t : Text) : Option Bool × Text :=
  match t with
  | 0x2B :: rest => (some false, rest)
  | 0x2D :: rest => (some true, rest)
  | t => (none, t)

/-- The integer of 64 bits with a sign and a magnitude; one without a sign may use the sign bit as
well. -/
def signed (sign : Option Bool) (n : Nat) : Option Int :=
  match sign with
  | some true => if n ≤ 2 ^ 63 then some (-(n : Int)) else none
  | some false => if n < 2 ^ 63 then some n else none
  | none => if n < 2 ^ 64 then some n else none

/-- An integer whose sign stands between the mark for its base and its digits. -/
def innerSigned (mark : String) (base : Nat) (t : Text) : Option Int := do
  let (sign, digits) := splitSign (← Text.stripLead? mark t)
  signed sign (← Text.toNat? base digits)

/-- An integer of 64 bits. -/
def integer (t : Text) : Option Int :=
  let (sign, digits) := splitSign t
  (magnitude digits).bind (signed sign) <|> innerSigned "0b" 2 t <|> innerSigned "0o" 8 t

/-- The double nearest to `digits * 10 ^ exponent`; none when it is infinite. -/
def decimalDouble (negative : Bool) (digits : Text) (exponent : Int) : Option ConfigFloat :=
  let n := (Text.toNat? 10 digits).getD 0
  let zero : ConfigFloat := if negative then .negativeZero else .finite 0
  let top : Int := exponent + (Text.ofNat n).length
  if n == 0 || top < -400 then some zero
  else if 400 < top then none
  else
    let q : Rat := if exponent < 0 then mkRat n (10 ^ exponent.natAbs) else (n * 10 ^ exponent.toNat : Nat)
    (BinaryFormat.double.round q).map fun r =>
      if r == 0 then zero else .finite (if negative then -r else r)

/-- The exponent of a decimal number: empty, or an `e` with a number. -/
def exponentOf (t : Text) : Option Int :=
  match t with
  | [] => some 0
  | e :: rest =>
    if e ||| 0x20 == 0x65 then
      let (sign, ds) := splitSign rest
      (Text.toNat? 10 ds).map fun n => if sign == some true then -(n : Int) else n
    else none

/-- A decimal number, with digits before the point or, where the number starts with it, after. -/
def floating (t : Text) : Option ConfigFloat := do
  let (sign, t) := splitSign t
  let whole := t.takeWhile Text.isDigit
  let rest := t.drop whole.length
  let pointed := rest.head? == some 0x2E
  let part := if pointed then (rest.drop 1).takeWhile Text.isDigit else []
  let rest := if pointed then rest.drop (1 + part.length) else rest
  if whole.isEmpty && part.isEmpty then none
  let e ← exponentOf rest
  decimalDouble (sign == some true) (whole ++ part) (e - part.length)

/-- Underscores stand between digits only. -/
def separated : Bool → Text → Bool
  | _, [] => true
  | digit, 0x5F :: rest => digit && (rest.head?.any Text.isDigit) && separated false rest
  | _, b :: rest => separated (Text.isDigit b) rest

/-! ## Plain scalars -/

/-- Texts with a meaning of their own. -/
def words : List (Text × (Tag × Data)) :=
  let entries := fun (tag : Tag) (v : Data) (names : List Text) => names.map fun n => (n, tag, v)
  entries .null .null ["", "~", "null", "Null", "NULL"] ++
  entries .bool (.bool true) ["true", "True", "TRUE"] ++
  entries .bool (.bool false) ["false", "False", "FALSE"] ++
  entries .float (.float .notANumber) [".nan", ".NaN", ".NAN"] ++
  entries .float (.float (.infinite false)) [".inf", ".Inf", ".INF", "+.inf", "+.Inf", "+.INF"] ++
  entries .float (.float (.infinite true)) ["-.inf", "-.Inf", "-.INF"]

/-- A number or, if allowed, a point in time. -/
def numeric (timed : Bool) (t : Text) : Option (Tag × Data) :=
  let plain := t.filter (· ≠ 0x5F)
  let time := if timed then (Timestamp.parse? t).map fun v => (Tag.timestamp, Data.time v) else none
  let int := (integer plain).map fun v => (Tag.int, Data.int v)
  let float := (floating plain).map fun v => (Tag.float, Data.float v)
  time.or (int.or float)

/-- What a text without quotes looks like. -/
def looks (timed : Bool) (t : Text) : Tag × Data :=
  let text := (Tag.str, Data.text t)
  match words.lookup t with
  | some m => m
  | none =>
    match t with
    | [] => text
    | b :: _ =>
      if b == 0x2E then
        if separated false t then
          ((floating (t.filter (· ≠ 0x5F))).map fun v => (Tag.float, Data.float v)).getD text
        else text
      else if Text.isDigit b || b == 0x2B || b == 0x2D then (numeric timed t).getD text
      else text

/-- The value of a scalar; none when it is not what its tag asks for. -/
def scalarValue (tag : Option Tag) (style : Style) (t : Text) : Option (Tag × Data) :=
  match tag with
  | none =>
    if style ≠ .plain then some (.str, .text t)
    else if t == utf8 "<<" then some (.merge, .text t)
    else some (looks true t)
  | some .str => some (.str, .text t)
  | some .binary => (Text.Base64.decode? t).map fun d => (.binary, .text d)
  | some tag =>
    if [.null, .bool, .int, .float, .timestamp].contains tag then
      match looks (tag == .timestamp) t, tag with
      | (.int, .int v), .float =>
        if v < 2 ^ 63 then some (.float, .float (.finite ((BinaryFormat.double.round v).getD 0)))
        else none
      | (found, v), tag => if found == tag then some (tag, v) else none
    else some (tag, .text t)

namespace Node

/-- The tag of a node, as written or by its looks. -/
def kind : Node → Tag
  | .scalar (some t) _ _ => t
  | .scalar none style t =>
    if style ≠ .plain then .str else if t == utf8 "<<" then .merge else (looks true t).1
  | .sequence tag _ => tag.getD .seq
  | .mapping tag _ _ => tag.getD .map
  | .alias _ (some n) => n.kind
  | .alias _ none => .other []

/-- A key that asks to take over the entries of other mappings. -/
def isMerge : Node → Bool
  | .scalar none .plain t => t == utf8 "<<"
  | .scalar (some .merge) _ t => t == utf8 "<<"
  | _ => false

/-- Two keys are written alike: both are scalars with the same text, aliases of the same name,
sequences, or mappings. -/
def alike : Node → Node → Bool
  | .scalar _ _ a, .scalar _ _ b => a == b
  | .alias a _, .alias b _ => a == b
  | .sequence .., .sequence .. => true
  | .mapping .., .mapping .. => true
  | _, _ => false

/-- Some key is written twice. -/
def repeats : List Node → Bool
  | [] => false
  | k :: ks => ks.any k.alike || repeats ks

end Node

end CaseCover.Yaml
