import CaseCover.Const.Printed

/-!
# Values

A value is what a construct can compare against: a constant, or nothing at all. The empty value
stands for a constant that could not be determined; it equals no value, not even itself.
-/

namespace CaseCover

/-- The value of a constant expression, or the empty value. -/
structure Value where
  constant : Option Const
deriving DecidableEq

namespace Value

/-- The value of a constant. -/
def of (c : Const) : Value := ⟨some c⟩

/-- The value of nothing. -/
def empty : Value := ⟨none⟩

/-- The value comes from a constant. -/
def IsProper (v : Value) : Prop := ∃ c, v = of c

instance (v : Value) : Decidable v.IsProper :=
  match v with
  | ⟨some c⟩ => isTrue ⟨c, rfl⟩
  | ⟨none⟩ => isFalse fun ⟨_, h⟩ => by cases h

/-- Two values denote the same constant. Strings, truth values and numbers are never mixed. -/
def same (v w : Value) : Bool :=
  match v.constant, w.constant with
  | some a, some b => a.same b
  | _, _ => false

/-- The value as it appears in a message. -/
def text (v : Value) : Text :=
  match v.constant with
  | some c => c.text
  | none => []

/-- Some value of the list is the same as `v`. -/
def occursIn (vs : List Value) (v : Value) : Bool := vs.any fun w => w.same v

end Value

/-- The values of `domain` that have no counterpart in `handled`, each once, in order. `found`
collects them, last one first. -/
def missingFrom (handled : List Value) : List Value → List Value → List Value
  | found, [] => found.reverse
  | found, v :: rest =>
    if Value.occursIn handled v || Value.occursIn found v then missingFrom handled found rest
    else missingFrom handled (v :: found) rest

/-- The distinct values of `domain` with no equal counterpart in `handled`, in the order of the
domain. Handled values outside the domain have no effect. -/
def missing (domain handled : List Value) : List Value := missingFrom handled [] domain

/-- The message of a construct that leaves the given values out. -/
def missingMessage (values : List Value) : Text :=
  utf8 "Match not exhaustive, values not matched: " ++ Text.join ", " (values.map Value.text)

end CaseCover
