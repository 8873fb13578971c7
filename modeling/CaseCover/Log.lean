import CaseCover.Text

/-!
# Log entries

What the program notes about its work: a level, a message, and the things it is about.
-/

namespace CaseCover

/-- How important an entry is. -/
inductive LogLevel where
  | debug
  | info
  | warn
  | error
deriving DecidableEq

/-- The name of a level. -/
def LogLevel.name : LogLevel → Text
  | .debug => "debug"
  | .info => "info"
  | .warn => "warn"
  | .error => "error"

/-- What an entry is about. -/
inductive LogSubject where
  | path (p : Text)
  | dir (p : Text)
  | file (p : Text)
  | package (p : Text)
  | source (n : Nat)
deriving DecidableEq

/-- The text of a subject; an empty name says nothing. -/
def LogSubject.text : LogSubject → Text
  | .path p => if p.isEmpty then [] else utf8 " path=" ++ p
  | .dir p => if p.isEmpty then [] else utf8 " dir=" ++ p
  | .file p => if p.isEmpty then [] else utf8 " file=" ++ p
  | .package p => if p.isEmpty then [] else utf8 " package=" ++ p
  | .source n => utf8 " source=" ++ Text.ofNat n

/-- A log entry. -/
structure Log where
  level : LogLevel
  message : Text
  subject : LogSubject
deriving DecidableEq

/-- The text of an entry. -/
def Log.text (l : Log) : Text := l.level.name ++ utf8 ": " ++ l.message ++ l.subject.text

end CaseCover
