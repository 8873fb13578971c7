import CaseCover.Source.Token

/-!
# Reading trees from tokens

The state of a reader is the list of tokens still to come, together with the nesting level that
tells whether an opening brace may start a composite literal. Reading stops at the first fault.

The rules of the grammar call each other in circles. They are written against a record `Rules` of
the recursive ones, so every rule is an ordinary function; `Source.Parse.Grammar` then ties the
knot with a bound on the depth that no text can reach.
-/

namespace CaseCover

/-- Why a text is not a source file. -/
inductive SourceFault where
  | lexical (fault : LexicalFault)
  | unexpected (pos : Pos)
  | tooDeep
deriving DecidableEq

/-- What a reader carries along: the tokens to come, their number, and the nesting level, which is
negative in the header of a statement outside of all brackets. -/
structure ParseState where
  tokens : List Token
  left : Nat
  level : Int

/-- A reader of tokens. -/
abbrev Parse := StateT ParseState (Except SourceFault)

/-- The recursive rules of the grammar. -/
structure Rules where
  type? : Parse (Option Expr)
  binary : Option Expr → Nat → Parse Expr
  unary : Parse Expr
  literalValue : Expr → Parse Expr
  stmt : Parse Stmt

namespace Parse

/-- The next token; past the end it is the end again. -/
def peek : Parse Token := do
  match (← get).tokens with
  | t :: _ => pure t
  | [] => pure ⟨0, .eof, []⟩

/-- The kind of the next token. -/
def kind : Parse TokenKind := do return (← peek).kind

/-- The position of the next token. -/
def pos : Parse Pos := do return (← peek).pos

/-- Passes over the next token. -/
def advance : Parse Unit := modify fun s => { s with tokens := s.tokens.tail, left := s.left - 1 }

/-- The next token does not fit here. -/
def unexpected {α : Type} : Parse α := do throw (.unexpected (← pos))

/-- The next token is the operator. -/
def atOp (o : Op) : Parse Bool := do return (← kind) == .op o

/-- The next token is the keyword. -/
def atKeyword (k : Keyword) : Parse Bool := do return (← kind) == .keyword k

/-- The next token is a name. -/
def atIdent : Parse Bool := do return (← kind) == .ident

/-- No token is left. -/
def atEnd : Parse Bool := do return (← kind) == .eof

/-- Reads the operator and gives its position. -/
def expectOp (o : Op) : Parse Pos := do
  let t ← peek
  if t.kind == .op o then
    advance
    pure t.pos
  else unexpected

/-- Reads the keyword and gives its position. -/
def expectKeyword (k : Keyword) : Parse Pos := do
  let t ← peek
  if t.kind == .keyword k then
    advance
    pure t.pos
  else unexpected

/-- Reads a name. -/
def ident : Parse Ident := do
  let t ← peek
  if t.kind == .ident then
    advance
    pure ⟨t.pos, t.text⟩
  else unexpected

/-- Reads the end of a statement: a semicolon, which may be left out before a closing bracket. -/
def endStatement : Parse Unit := do
  let k ← kind
  if k == .op .rparen || k == .op .rbrace then pure ()
  else if k == .op .semicolon then advance
  else unexpected

/-- At a comma inside a list that ends with the given bracket; anything but the two is a fault. -/
def atComma (close : Op) : Parse Bool := do
  let k ← kind
  if k == .op .comma then pure true
  else if k == .op close then pure false
  else unexpected

/-- Runs a reader one nesting level deeper. -/
def nested {α : Type} (p : Parse α) : Parse α := do
  modify fun s => { s with level := s.level + 1 }
  let a ← p
  modify fun s => { s with level := s.level - 1 }
  pure a

/-- Runs a reader in the header of a statement. -/
def inHeader {α : Type} (p : Parse α) : Parse α := do
  let level := (← get).level
  modify fun s => { s with level := -1 }
  let a ← p
  modify fun s => { s with level := level }
  pure a

/-- Whether a repetition goes on. -/
inductive Step (σ : Type) where
  | more (s : σ)
  | done (s : σ)

/-- Repeats a step at most `bound` times. -/
def repeatFor {σ : Type} (step : σ → Parse (Step σ)) : Nat → σ → Parse σ
  | 0, _ => throw .tooDeep
  | n + 1, s => do
    match ← step s with
    | .more s => repeatFor step n s
    | .done s => pure s

/-- Repeats a step until it is done; each repetition but the last must read a token. -/
def repeated {σ : Type} (init : σ) (step : σ → Parse (Step σ)) : Parse σ := do
  repeatFor step ((← get).left + 2) init

/-- Items with a reader each, as long as the test holds before the next one. -/
def many {α : Type} (test : Parse Bool) (item : Parse α) : Parse (List α) := do
  let items ← repeated [] fun acc => do
    if ← test then return .more ((← item) :: acc) else return .done acc
  return items.reverse

/-- One or more items with commas between them. -/
def commaSeparated {α : Type} (item : Parse α) : Parse (List α) := do
  let first ← item
  let rest ← many (atOp .comma) (do advance; item)
  return first :: rest

/-- Items with commas between them up to a closing bracket, which may follow a comma. -/
def itemsUntil {α : Type} (close : Op) (item : Parse α) : Parse (List α) := do
  let items ← repeated [] fun acc => do
    if (← atOp close) || (← atEnd) then return .done acc
    let acc := (← item) :: acc
    if ← atComma close then
      advance
      return .more acc
    else return .done acc
  return items.reverse

/-- An expression. -/
def expr (r : Rules) : Parse Expr := r.binary none 1

/-- One or more expressions with commas between them. -/
def exprList (r : Rules) : Parse (List Expr) := commaSeparated (expr r)

/-- A type, which must be there. -/
def type (r : Rules) : Parse Expr := do
  match ← r.type? with
  | some t => pure t
  | none => unexpected

end Parse

end CaseCover
