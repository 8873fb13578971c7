import CaseCover.Config.Timestamp
import CaseCover.Severity

/-!
# Configuration values

Values of any kind as a configuration file can hold them, and the configuration of a rule.
-/

namespace CaseCover

/-- A floating point number of a configuration. -/
inductive ConfigFloat where
  | finite (q : Rat)
  | negativeZero
  | infinite (negative : Bool)
  | notANumber
deriving DecidableEq

/-- A value of a configuration. A map has its keys and values in two lists; `plain` tells that its
keys are texts. -/
inductive Data where
  | null
  | bool (b : Bool)
  | int (v : Int)
  | float (f : ConfigFloat)
  | text (t : Text)
  | time (t : Timestamp)
  | list (items : List Data)
  | map (plain : Bool) (keys values : List Data)
deriving Inhabited

namespace Data

/-- Two values are the same key of a map. Lists and maps are no keys, and a number that is none is
not the same as itself. -/
def sameKey : Data → Data → Bool
  | .null, .null => true
  | .bool a, .bool b => a == b
  | .int a, .int b => a == b
  | .float .notANumber, .float .notANumber => false
  | .float .negativeZero, .float (.finite q) => q == 0
  | .float (.finite q), .float .negativeZero => q == 0
  | .float a, .float b => a == b
  | .text a, .text b => a == b
  | .time a, .time b => a == b
  | _, _ => false

/-- A list or a map. -/
def isCollection : Data → Bool
  | .list _ => true
  | .map .. => true
  | _ => false

end Data

/-- An association list with the value of a key set, in place if the key is there. -/
def setEntry {κ ν : Type} (same : κ → κ → Bool) (key : κ) (value : ν) : List (κ × ν) → List (κ × ν)
  | [] => [(key, value)]
  | (k, v) :: rest =>
    if same k key then (k, value) :: rest else (k, v) :: setEntry same key value rest

/-- The configuration of a rule: its severity, and options if there are some. -/
structure RuleConfig where
  severity : Severity
  data : Option (List (Text × Data))

namespace RuleConfig

/-- A rule that is not configured. -/
def empty : RuleConfig := ⟨.error, none⟩

/-- The truth value of an option; `dflt` when it is not set or is no truth value. -/
def flag (c : RuleConfig) (key : Text) (dflt : Bool) : Bool :=
  match (c.data.getD []).find? fun e => e.1 == key with
  | some (_, .bool b) => b
  | _ => dflt

end RuleConfig

end CaseCover
