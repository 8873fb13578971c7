import CaseCover.Coverage.Value
import CaseCover.Source.Tree

/-!
# Shapes of types

What the analysis knows about a type: it holds exactly one value, it is a union of member types in
the order of their declarations, or it is anything else.
-/

namespace CaseCover

/-- A type with exactly one value. Name and position are those of the constant that declares it,
if there is one. -/
structure Literal where
  value : Value
  name : Text
  pos : Pos
deriving DecidableEq

/-- The shape of a type. -/
inductive Shape where
  | literal (l : Literal)
  | union (members : List Shape)
  | other
deriving Inhabited

namespace Shape

/-- The value of a literal type. -/
def literalValue? : Shape → Option Value
  | .literal l => some l.value
  | _ => none

/-- The literals among members that are all literals. -/
def allLiterals? : List Shape → Option (List Literal)
  | [] => some []
  | .literal l :: rest => (allLiterals? rest).map (l :: ·)
  | _ :: _ => none

/-- The members of a union that has some and holds literals only. -/
def closedMembers? : Shape → Option (List Literal)
  | .union [] => none
  | .union members => allLiterals? members
  | _ => none

/-- The distinct values of a closed union, first occurrences kept. -/
def closedValues? (s : Shape) : Option (List Value) :=
  s.closedMembers?.map fun ls => ls.foldl (fun vs l =>
    if Value.occursIn vs l.value then vs else vs ++ [l.value]) []

end Shape

/-- What resolves the shape of an expression's type. -/
abbrev Shapes := Expr → Shape

end CaseCover
