import CaseCover.Text.Quoted
import CaseCover.Text.Space

/-!
# Severities

How the issues of a rule are reported. A severity is read from its name without regard to case and
to white space around it; a rule with severity `off` does not run.
-/

namespace CaseCover

/-- A severity; numbers without a name are kept as they are. -/
inductive Severity where
  | error
  | warning
  | info
  | off
  | unnamed (code : Int)
deriving DecidableEq

namespace Severity

/-- The severity with a number. -/
def ofCode (n : Int) : Severity :=
  if n = 0 then .error
  else if n = 1 then .warning
  else if n = 2 then .info
  else if n = 3 then .off
  else .unnamed n

/-- The number of a severity. -/
def code : Severity → Int
  | .error => 0
  | .warning => 1
  | .info => 2
  | .off => 3
  | .unnamed n => n

/-- The name of a severity. -/
def name : Severity → Text
  | .error => "ERROR"
  | .warning => "WARNING"
  | .info => "INFO"
  | .off => "OFF"
  | .unnamed _ => "UNKNOWN"

/-- The upper case of a character, for the characters whose upper case is an ASCII letter; all
others stay as they are. -/
def upperCode (n : Nat) : Nat :=
  if 0x61 ≤ n && n ≤ 0x7A then n - 32
  else if n == 0x131 then 0x49
  else if n == 0x17F then 0x53
  else n

/-- A text is no name of a severity. -/
structure NameError where
  text : Text
deriving DecidableEq

/-- The message for a text that names no severity. -/
def NameError.message (e : NameError) : Text := utf8 "unknown severity " ++ Text.quoted e.text

/-- The severities that have names. -/
def named : List Severity := [.error, .warning, .info, .off]

/-- Reads a severity from its name. -/
def parse (t : Text) : Except NameError Severity :=
  let codes := (Text.codes (Text.trim t)).map upperCode
  match named.find? fun s => Text.codes s.name == codes with
  | some s => .ok s
  | none => .error ⟨t⟩

/-- Reads a severity in place of another one, which stays when the text is no name. -/
def update (current : Severity) (t : Text) : Severity :=
  match parse t with
  | .ok s => s
  | .error _ => current

end Severity

end CaseCover
