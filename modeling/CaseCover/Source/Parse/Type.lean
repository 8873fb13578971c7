import CaseCover.Source.Parse.Basic

/-!
# Reading types

Type expressions, with the fields of structures, the members of interfaces and the parameters of
functions and generic declarations.
-/

namespace CaseCover.Parse

/-- A name, possibly qualified by a package name. -/
def typeName (first : Option Ident) : Parse Expr := do
  let id ← match first with
    | some id => pure id
    | none => ident
  if ← atOp .period then
    advance
    return .selector (.ident id) (← ident)
  return .ident id

/-- The type arguments in brackets after a generic type. -/
def typeInstance (r : Rules) (x : Expr) : Parse Expr := do
  let _ ← expectOp .lbrack
  let args ← nested (itemsUntil .rbrack (type r))
  let close ← expectOp .rbrack
  if args.isEmpty then throw (.unexpected close)
  return .index x args close

/-- A type name with optional type arguments. -/
def qualifiedName (r : Rules) (first : Option Ident) : Parse Expr := do
  let x ← typeName first
  if ← atOp .lbrack then typeInstance r x else pure x

/-- An array or slice type after its opening bracket at `start`; the length may have been read. -/
def arrayType (r : Rules) (start : Pos) (length : Option Expr) : Parse Expr := do
  let length ← match length with
    | some e => pure e
    | none => nested do
      if ← atOp .ellipsis then
        let dots ← expectOp .ellipsis
        return .ellipsis dots .absent
      if ← atOp .rbrack then return .absent
      expr r
  let _ ← expectOp .rbrack
  return .arrayType start length (← type r)

/-- What follows the name of a field or parameter at an opening bracket: an array or slice type,
or type arguments, which make the name a type. -/
def arrayOrInstance (r : Rules) (id : Ident) : Parse (Option Ident × Expr) := do
  let start ← expectOp .lbrack
  let (args, trailing) ←
    if ← atOp .rbrack then pure ([], false)
    else nested do
      let first ← expr r
      let (args, trailing) ← repeated ([first], false) fun (acc, _) => do
        if ← atOp .comma then
          advance
          if ← atOp .rbrack then return .done (acc, true)
          return .more (acc ++ [← expr r], false)
        return .done (acc, false)
      pure (args, trailing)
  let close ← expectOp .rbrack
  match args with
  | [] => return (some id, .arrayType start .absent (← type r))
  | [length] =>
    match ← r.type? with
    | some element =>
      if trailing then throw (.unexpected close)
      return (some id, .arrayType start length element)
    | none => return (none, .index (.ident id) args close)
  | _ => return (none, .index (.ident id) args close)

/-- A term of a union of types. -/
def unionTerm (r : Rules) : Parse Expr := do
  if ← atOp .tilde then
    let p ← expectOp .tilde
    return .unary p .tilde (← type r)
  type r

/-- A union of types, of which the first may have been read. -/
def unionElem (r : Rules) (first : Option Expr) : Parse Expr := do
  let x ← match first with
    | some x => pure x
    | none => unionTerm r
  repeated x fun x => do
    if ← atOp .or then
      advance
      return .more (.binary x .or (← unionTerm r))
    return .done x

/-! ## Parameters -/

/-- A parameter as written: its name, its type, or both. -/
structure Param where
  name : Option Ident
  type : Option Expr

/-- One parameter; a name in front of it may have been read. Type parameters (`unions`) may have
unions as types. -/
def paramDecl (r : Rules) (unions : Bool) (first : Option Ident) : Parse Param := do
  if first.isNone && unions && (← atOp .tilde) then
    return ⟨none, some (← unionElem r none)⟩
  let widen := fun (p : Param) => do
    match p.type with
    | some t =>
      if unions && (← atOp .or) then return ⟨p.name, some (← unionElem r (some t))⟩
      return p
    | none => return p
  if first.isSome || (← atIdent) then
    let id ← match first with
      | some id => pure id
      | none => ident
    if ← atOp .lbrack then
      let (name, t) ← arrayOrInstance r id
      widen ⟨name, some t⟩
    else if ← atOp .ellipsis then
      let dots ← expectOp .ellipsis
      return ⟨some id, some (.ellipsis dots (← type r))⟩
    else if ← atOp .period then
      widen ⟨none, some (← qualifiedName r (some id))⟩
    else if unions && (← atOp .tilde) then
      return ⟨some id, some (← unionElem r none)⟩
    else if unions && (← atOp .or) then
      return ⟨none, some (← unionElem r (some (.ident id)))⟩
    else widen ⟨some id, ← r.type?⟩
  else if ← atOp .ellipsis then
    let dots ← expectOp .ellipsis
    return ⟨none, some (.ellipsis dots (← type r))⟩
  else widen ⟨none, some (← type r)⟩

/-- Names before a type share it; each group becomes a field. Names that no type follows make the
list malformed. -/
def groupParams : List Ident → List Param → Option (List Expr)
  | [], [] => some []
  | _ :: _, [] => none
  | names, ⟨some id, some t⟩ :: rest =>
    (groupParams [] rest).map (.field (names ++ [id]) t [] :: ·)
  | names, ⟨some id, none⟩ :: rest => groupParams (names ++ [id]) rest
  | _, ⟨none, _⟩ :: _ => none

/-- A list without any named parameter: each entry is a type. -/
def bareParams : List Param → List Expr
  | [] => []
  | ⟨_, some t⟩ :: rest => .field [] t [] :: bareParams rest
  | ⟨some id, none⟩ :: rest => .field [] (.ident id) [] :: bareParams rest
  | ⟨none, none⟩ :: rest => bareParams rest

/-- A parameter list up to a closing bracket. The first name, and its type, may have been read. -/
def paramList (r : Rules) (name : Option Ident) (t : Option Expr) (close : Op) :
    Parse (List Expr) := do
  let unions := close == Op.rbrack
  let step := fun (acc : List Param) (name : Option Ident) (t : Option Expr) => do
    let p ← match t with
      | some t =>
        if unions then pure ⟨name, some (← unionElem r (some t))⟩ else pure ⟨name, some t⟩
      | none => paramDecl r unions name
    if ← atComma close then
      advance
      return Step.more (p :: acc)
    return Step.done (p :: acc)
  let continueWith := fun (acc : List Param) => repeated acc fun acc => do
    if (← atOp close) || (← atEnd) then return .done acc
    step acc none none
  let params ←
    if name.isSome then
      match ← step [] name t with
      | .more acc => continueWith acc
      | .done acc => pure acc
    else continueWith []
  let params := params.reverse
  if params.any fun p => p.name.isSome && p.type.isSome then
    match groupParams [] params with
    | some fields => pure fields
    | none => unexpected
  else if unions && !params.isEmpty then unexpected
  else pure (bareParams params)

/-- Type parameters in brackets, which must not be empty. -/
def typeParams (r : Rules) : Parse (List Expr) := do
  let _ ← expectOp .lbrack
  let params ← paramList r none none .rbrack
  let close ← expectOp .rbrack
  if params.isEmpty then throw (.unexpected close)
  return params

/-- Parameters in parentheses, and the position after them. -/
def params (r : Rules) : Parse (List Expr × Pos) := do
  let _ ← expectOp .lparen
  let ps ← paramList r none none .rparen
  let close ← expectOp .rparen
  return (ps, close + 1)

/-- The results of a function after its parameters, which end at `stop`. -/
def results (r : Rules) (stop : Pos) : Parse (List Expr × Pos) := do
  if ← atOp .lparen then params r
  else
    match ← r.type? with
    | some t => return ([.field [] t []], t.stop)
    | none => return ([], stop)

/-- A function type. -/
def funcType (r : Rules) : Parse Expr := do
  let start ← expectKeyword .kwFunc
  let (ps, stop) ← params r
  let (rs, stop) ← results r stop
  return .funcType start [] ps rs stop

/-! ## Structures and interfaces -/

/-- The tag of a field. -/
def fieldTag : Parse Text := do
  let t ← peek
  if t.kind == .literal .string then
    advance
    pure t.text
  else pure []

/-- A field declaration of a structure. -/
def fieldDecl (r : Rules) : Parse Expr := do
  let (names, t) ←
    if ← atIdent then
      let id ← ident
      let k ← kind
      if k == .op .period || k == .literal .string || k == .op .semicolon || k == .op .rbrace then
        let t ← if k == .op .period then qualifiedName r (some id) else pure (.ident id)
        pure ([], t)
      else
        let more ← many (atOp .comma) (do advance; ident)
        if more.isEmpty && (← atOp .lbrack) then
          let (name, t) ← arrayOrInstance r id
          pure (name.toList, t)
        else pure (id :: more, ← type r)
    else if ← atOp .mul then
      let star ← expectOp .mul
      if ← atOp .lparen then unexpected
      pure ([], .star star (← qualifiedName r none))
    else unexpected
  let tag ← fieldTag
  endStatement
  return .field names t tag

/-- A structure type. -/
def structType (r : Rules) : Parse Expr := do
  let start ← expectKeyword .kwStruct
  let _ ← expectOp .lbrace
  let fields ← many (do return (← atIdent) || (← atOp .mul) || (← atOp .lparen)) (fieldDecl r)
  let close ← expectOp .rbrace
  return .structType start fields close

/-- A member of an interface that starts with a name: a method or an embedded type. -/
def methodSpec (r : Rules) : Parse Expr := do
  let x ← typeName none
  match x with
  | .ident id =>
    if ← atOp .lbrack then
      let _ ← expectOp .lbrack
      let first ← nested (expr r)
      let more ←
        if ← atComma .rbrack then
          advance
          nested (itemsUntil .rbrack (type r))
        else pure []
      let close ← expectOp .rbrack
      return .field [] (.index x (first :: more) close) []
    else if ← atOp .lparen then
      let (ps, stop) ← params r
      let (rs, stop) ← results r stop
      return .field [id] (.funcType 0 [] ps rs stop) []
    else return .field [] x []
  | x =>
    let t ← if ← atOp .lbrack then typeInstance r x else pure x
    return .field [] t []

/-- An interface type. -/
def interfaceType (r : Rules) : Parse Expr := do
  let start ← expectKeyword .kwInterface
  let _ ← expectOp .lbrace
  let members ← repeated [] fun acc => do
    if ← atIdent then
      let m ← methodSpec r
      let m ← match m with
        | .field [] t tag => do pure (.field [] (← unionElem r (some t)) tag)
        | m => pure m
      endStatement
      return .more (m :: acc)
    else if ← atOp .tilde then
      let t ← unionElem r none
      endStatement
      return .more (.field [] t [] :: acc)
    else
      match ← r.type? with
      | some t =>
        let t ← unionElem r (some t)
        endStatement
        return .more (.field [] t [] :: acc)
      | none => return .done acc
  let close ← expectOp .rbrace
  return .interfaceType start members.reverse close

/-- A channel type. -/
def chanType (r : Rules) : Parse Expr := do
  let start ← pos
  if ← atKeyword .kwChan then
    advance
    if ← atOp .arrow then
      advance
      return .chanType start .send (← type r)
    return .chanType start .both (← type r)
  let _ ← expectOp .arrow
  let _ ← expectKeyword .kwChan
  return .chanType start .receive (← type r)

/-- A type, if the next token starts one. -/
def typeRule (r : Rules) : Parse (Option Expr) := do
  match ← kind with
  | .ident => return some (← qualifiedName r none)
  | .op .lbrack =>
    let start ← expectOp .lbrack
    return some (← arrayType r start none)
  | .keyword .kwStruct => return some (← structType r)
  | .op .mul =>
    let star ← expectOp .mul
    return some (.star star (← type r))
  | .keyword .kwFunc => return some (← funcType r)
  | .keyword .kwInterface => return some (← interfaceType r)
  | .keyword .kwMap =>
    let start ← expectKeyword .kwMap
    let _ ← expectOp .lbrack
    let key ← type r
    let _ ← expectOp .rbrack
    return some (.mapType start key (← type r))
  | .keyword .kwChan => return some (← chanType r)
  | .op .arrow => return some (← chanType r)
  | .op .lparen =>
    let start ← expectOp .lparen
    let t ← type r
    let close ← expectOp .rparen
    return some (.paren start t close)
  | _ => return none

end CaseCover.Parse
