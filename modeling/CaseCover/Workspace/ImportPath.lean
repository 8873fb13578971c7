import CaseCover.Path
import CaseCover.Text.Quoted

/-!
# Import paths

An import path names a package. Its elements stand between slashes and have letters, digits and a few
marks of ASCII only, so that every system can have directories with these names; some names that are
special elsewhere are refused for the same reason. A path through a directory `vendor` does not name
a package, and a path through a directory `internal` names one for the packages around that directory.
-/

namespace CaseCover

namespace ImportPath

/-- A byte of an element. -/
def isElementByte (b : UInt8) : Bool :=
  Text.isDigit b || (0x41 ≤ b && b ≤ 0x5A) || (0x61 ≤ b && b ≤ 0x7A) || (utf8 "-._~+").contains b

/-- Names of devices. -/
def devices : List Text :=
  (["con", "prn", "aux", "nul"] ++
    (List.range 9).flatMap fun n => ["com" ++ toString (n + 1), "lpt" ++ toString (n + 1)]).map utf8

/-- A name that a long name is shortened to: it ends in a tilde and digits. -/
def isShortened (name : Text) : Bool :=
  let digits := name.reverse.takeWhile Text.isDigit
  !digits.isEmpty && (name.reverse.drop digits.length).head? == some 0x7E

/-- Why a text is no import path. -/
inductive Cause where
  | notUtf8
  | empty
  | leadingDash
  | doubleSlash
  | trailingSlash
  | emptyElement
  | dots (element : Text)
  | trailingDot
  | badCharacter (code : Nat)
  | device (name : Text)
  | shortened
deriving DecidableEq

/-- The message of a cause. -/
def Cause.message : Cause → Text
  | .notUtf8 => "invalid UTF-8"
  | .empty => "empty string"
  | .leadingDash => "leading dash"
  | .doubleSlash => "double slash"
  | .trailingSlash => "trailing slash"
  | .emptyElement => "empty path element"
  | .dots e => utf8 "invalid path element " ++ Text.quoted e
  | .trailingDot => "trailing dot in path element"
  | .badCharacter c => utf8 "invalid char " ++ Text.quotedCode c
  | .device name => Text.quoted name ++ utf8 " disallowed as path element component on Windows"
  | .shortened => "trailing tilde and digits in path element"

/-- The character of an element that it may not have. -/
def strayCode? (e : Text) : Option Nat :=
  ((Text.characters e).find? fun c => !c.bytes.all isElementByte).map (·.code)

/-- What is wrong with an element of an import path. -/
def elementFault? (e : Text) : Option Cause :=
  let name := e.takeWhile (· ≠ 0x2E)
  if e.isEmpty then some .emptyElement
  else if e.all (· == 0x2E) then some (.dots e)
  else if e.getLast? == some 0x2E then some .trailingDot
  else
    match strayCode? e with
    | some c => some (.badCharacter c)
    | none =>
      if devices.contains (Text.lowerAscii name) then some (.device name)
      else if isShortened name then some .shortened
      else none

/-- What is wrong with an import path. -/
def fault? (path : Text) : Option Cause :=
  if !Text.isValid path then some .notUtf8
  else if path.isEmpty then some .empty
  else if path.head? == some 0x2D then some .leadingDash
  else if Text.containsText "//" path then some .doubleSlash
  else if path.getLast? == some Path.separator then some .trailingSlash
  else (Text.splitOn [Path.separator] path).findSome? elementFault?

/-- A text is an import path. -/
def isValid (path : Text) : Bool := (fault? path).isNone

/-- A name that no command takes for an option. -/
def isPlainName (name : Text) : Bool :=
  match name with
  | [] => false
  | b :: _ => Text.isDigit b || (0x41 ≤ b && b ≤ 0x5A) || (0x61 ≤ b && b ≤ 0x7A) || b == 0x2E ||
    b == 0x5F || b ≥ 0x80

/-- The directory for copies of packages of other modules. -/
def vendor : Text := "vendor"

/-- A path goes through a directory for copies. -/
def isVendored (path : Text) : Bool := ((Text.splitOn [Path.separator] path).dropLast).contains vendor

/-- The directory around the last `internal` of a path; only packages below it may import it. -/
def internalHome? (path : Text) : Option Text :=
  let parts := Path.components path
  let after := parts.reverse.takeWhile (· != utf8 "internal")
  if after.length < parts.length then
    some (Text.join [Path.separator] (parts.take (parts.length - after.length - 1)))
  else none

/-- A path is a directory or lies below it. -/
def isWithin (dir path : Text) : Bool :=
  dir.isEmpty || path == dir || Text.startsWith path (dir ++ [Path.separator])

end ImportPath

end CaseCover
