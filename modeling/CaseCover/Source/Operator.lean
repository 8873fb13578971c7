import CaseCover.Text

/-!
# Operators and keywords

The fixed words of the analysed language with their spelling, and the binding strength of the
binary operators.
-/

namespace CaseCover

/-- Operators and punctuation. -/
inductive Op where
  | add | sub | mul | quo | rem
  | and | or | xor | shl | shr | andNot
  | addAssign | subAssign | mulAssign | quoAssign | remAssign
  | andAssign | orAssign | xorAssign | shlAssign | shrAssign | andNotAssign
  | land | lor | arrow | inc | dec | eql | lss | gtr | assign | not | tilde
  | neq | leq | geq | define | ellipsis
  | lparen | lbrack | lbrace | comma | period
  | rparen | rbrack | rbrace | semicolon | colon
  | illegal
deriving DecidableEq

namespace Op

/-- The operators with their spelling. -/
def table : List (Op × String) :=
  [(.add, "+"), (.sub, "-"), (.mul, "*"), (.quo, "/"), (.rem, "%"),
   (.and, "&"), (.or, "|"), (.xor, "^"), (.shl, "<<"), (.shr, ">>"), (.andNot, "&^"),
   (.addAssign, "+="), (.subAssign, "-="), (.mulAssign, "*="), (.quoAssign, "/="),
   (.remAssign, "%="), (.andAssign, "&="), (.orAssign, "|="), (.xorAssign, "^="),
   (.shlAssign, "<<="), (.shrAssign, ">>="), (.andNotAssign, "&^="),
   (.land, "&&"), (.lor, "||"), (.arrow, "<-"), (.inc, "++"), (.dec, "--"), (.eql, "=="),
   (.lss, "<"), (.gtr, ">"), (.assign, "="), (.not, "!"), (.tilde, "~"),
   (.neq, "!="), (.leq, "<="), (.geq, ">="), (.define, ":="), (.ellipsis, "..."),
   (.lparen, "("), (.lbrack, "["), (.lbrace, "\x7b"), (.comma, ","), (.period, "."),
   (.rparen, ")"), (.rbrack, "]"), (.rbrace, "\x7d"), (.semicolon, ";"), (.colon, ":"),
   (.illegal, "ILLEGAL")]

/-- The operators with the bytes of their spelling. -/
def spellings : List (Op × Text) := table.map fun e => (e.1, utf8 e.2)

/-- The spelling of an operator. -/
def text (op : Op) : Text :=
  match spellings.find? fun e => e.1 == op with
  | some e => e.2
  | none => []

/-- The operator with the given spelling. -/
def ofText? (t : Text) : Option Op := (spellings.find? fun e => e.2 == t).map (·.1)

/-- The strength of a binary operator, from 1 for `||` to 5 for `*`; 0 for all others. -/
def precedence : Op → Nat
  | .lor => 1
  | .land => 2
  | .eql | .neq | .lss | .leq | .gtr | .geq => 3
  | .add | .sub | .or | .xor => 4
  | .mul | .quo | .rem | .shl | .shr | .and | .andNot => 5
  | _ => 0

/-- The operator that a compound assignment applies. -/
def compound? : Op → Option Op
  | .addAssign => some .add
  | .subAssign => some .sub
  | .mulAssign => some .mul
  | .quoAssign => some .quo
  | .remAssign => some .rem
  | .andAssign => some .and
  | .orAssign => some .or
  | .xorAssign => some .xor
  | .shlAssign => some .shl
  | .shrAssign => some .shr
  | .andNotAssign => some .andNot
  | _ => none

end Op

/-- Keywords. -/
inductive Keyword where
  | kwBreak | kwCase | kwChan | kwConst | kwContinue | kwDefault | kwDefer | kwElse
  | kwFallthrough | kwFor | kwFunc | kwGo | kwGoto | kwIf | kwImport | kwInterface | kwMap
  | kwPackage | kwRange | kwReturn | kwSelect | kwStruct | kwSwitch | kwType | kwVar
deriving DecidableEq

namespace Keyword

/-- The keywords with their spelling. -/
def table : List (Keyword × String) :=
  [(.kwBreak, "break"), (.kwCase, "case"), (.kwChan, "chan"), (.kwConst, "const"),
   (.kwContinue, "continue"), (.kwDefault, "default"), (.kwDefer, "defer"), (.kwElse, "else"),
   (.kwFallthrough, "fallthrough"), (.kwFor, "for"), (.kwFunc, "func"), (.kwGo, "go"),
   (.kwGoto, "goto"), (.kwIf, "if"), (.kwImport, "import"), (.kwInterface, "interface"),
   (.kwMap, "map"), (.kwPackage, "package"), (.kwRange, "range"), (.kwReturn, "return"),
   (.kwSelect, "select"), (.kwStruct, "struct"), (.kwSwitch, "switch"), (.kwType, "type"),
   (.kwVar, "var")]

/-- The keywords with the bytes of their spelling. -/
def spellings : List (Keyword × Text) := table.map fun e => (e.1, utf8 e.2)

/-- The keyword with the given spelling. -/
def ofText? (t : Text) : Option Keyword := (spellings.find? fun e => e.2 == t).map (·.1)

end Keyword

end CaseCover
