import CaseCover.Const.Literal
import CaseCover.Workspace.ImportPath
import CaseCover.Workspace.LanguageVersion
import CaseCover.Workspace.ModuleSyntax

/-!
# Module files

A module file gives a module its path and says which version of the language it is written in. It may
also name other modules that are required, left out or replaced, and versions of its own that are
taken back; these do not matter to a module whose packages import only each other, but they have to
be well-formed.

All faults of the lines of a file are told, in their order. A file that asks for a later version than
the one at hand is refused for that alone, as far as its faults may be due to the later version.
-/

namespace CaseCover

/-- What a module file says: the path of the module and the version of the language, with the text
that gave it. -/
structure ModuleFile where
  path : Option Text
  version : Option Text
  hasToolchain : Bool
deriving DecidableEq

namespace ModuleFile

/-- Nothing is said. -/
def empty : ModuleFile := ⟨none, none, false⟩

/-- The name of a module file. -/
def fileName : Text := "go.mod"

/-! ## Faults -/

/-- Why a quoted or plain word has no text. -/
inductive WordCause where
  | badQuotes
  | strayQuote
deriving DecidableEq

/-- The message of a cause. -/
def WordCause.message : WordCause → Text
  | .badQuotes => "invalid syntax"
  | .strayQuote => "unquoted string cannot contain quote"

/-- Why a line of a module file is refused. -/
inductive LineCause where
  | unknownBlock (words : List Text)
  | unknownDirective (word : Text)
  | repeated (word : Text)
  | notOneArgument (word : Text)
  | badVersion (text : Text)
  | badToolchain (text : Text)
  | moduleUsage
  | versionUsage (word : Text)
  | replaceUsage (word : Text)
  | badWord (cause : WordCause)
  | badModuleVersion (word path version : Text) (cause : Option WordCause)
  | noReplacement
  | replacementAt
  | versionOfDirectory (path : Text)
  | noInterval
  | expectedAfter (expected before : Text)
  | wordAfterVersion (word : Text)
deriving DecidableEq

/-- The message of a cause. -/
def LineCause.message : LineCause → Text
  | .unknownBlock words => utf8 "unknown block type: " ++ Text.join " " words
  | .unknownDirective word => utf8 "unknown directive: " ++ word
  | .repeated word => utf8 "repeated " ++ word ++ utf8 " statement"
  | .notOneArgument word => word ++ utf8 " directive expects exactly one argument"
  | .badVersion t => utf8 "invalid go version '" ++ t ++ utf8 "': must match format 1.23"
  | .badToolchain t => utf8 "invalid toolchain version '" ++ t ++ utf8 "': must match format go1.23 or local"
  | .moduleUsage => "usage: module module/path"
  | .versionUsage word => utf8 "usage: " ++ word ++ utf8 " module/path v1.2.3"
  | .replaceUsage word =>
    utf8 "usage: " ++ word ++ utf8 " module/path [v1.2.3] => other/module v1.4\n\t or " ++ word ++
      utf8 " module/path [v1.2.3] => ../local/directory"
  | .badWord c => utf8 "invalid quoted string: " ++ c.message
  | .badModuleVersion word path version cause =>
    word ++ (if path.isEmpty then [] else utf8 " " ++ path) ++ utf8 ": version " ++ Text.quoted version ++
      utf8 " invalid: " ++ ((cause.map WordCause.message).getD "must be of the form v1.2.3")
  | .noReplacement =>
    "replacement module without version must be directory path (rooted or starting with . or ..)"
  | .replacementAt => "replacement module must match format 'path version', not 'path@version'"
  | .versionOfDirectory path =>
    utf8 "replacement module directory path " ++ Text.quoted path ++ utf8 " cannot have version"
  | .noInterval => "expected '[' or version"
  | .expectedAfter expected before => utf8 "expected " ++ expected ++ utf8 " after " ++ before
  | .wordAfterVersion word => utf8 "unexpected token after version: " ++ Text.quoted word

/-- A refused line. -/
structure LineFault where
  spot : Spot
  cause : LineCause
deriving DecidableEq

/-! ## Words -/

/-- The text that a word stands for. -/
def wordText (word : Text) : Except WordCause Text :=
  if Text.startsWith word "\"" then
    match Const.stringLiteral word with
    | some t => .ok t
    | none => .error .badQuotes
  else if word.any fun b => b == 0x22 || b == 0x27 || b == 0x60 then .error .strayQuote
  else .ok word

/-- The text that a word stands for, in a line. -/
def argument (word : Text) : Except LineCause Text := (wordText word).mapError .badWord

/-- The text of a version of the language: two or three numbers and perhaps a stage. -/
def isLanguageVersion (t : Text) : Bool :=
  (LanguageVersion.parse? t).isSome

/-- The text of a version with anything after its first two numbers left out. -/
def shortened? (t : Text) : Option Text := do
  let t := (Text.stripLead? "v" t).getD t
  let (major, rest) ← LanguageVersion.number? t
  let (minor, rest) ← LanguageVersion.pointed? rest
  if major == 0 || minor.isNone || rest.isEmpty then none
  return t.take (t.length - rest.length)

/-- The name of a toolchain. -/
def isToolchain (t : Text) : Bool :=
  t == utf8 "default" || t == utf8 "go1" || Text.startsWith t "go1."

/-- The identifiers of a part of a module version, between points. -/
def areIdentifiers (numbersPlain : Bool) (t : Text) : Bool :=
  (Text.splitOn "." t).all fun part =>
    !part.isEmpty && part.all (fun b => ImportPath.isElementByte b && !(utf8 "._~+").contains b) &&
      !(numbersPlain && part.all Text.isDigit && 1 < part.length && part.head? == some 0x30)

/-- A complete version of a module: three numbers and perhaps a stage. -/
def isModuleVersion (t : Text) : Bool :=
  let plain := (Text.stripTail? "+incompatible" t).getD t
  match Text.stripLead? "v" plain with
  | none => false
  | some t =>
    let numbers := t.takeWhile (· ≠ 0x2D)
    let stage := t.drop numbers.length
    let parts := Text.splitOn "." numbers
    parts.length == 3 &&
      parts.all (fun p => (LanguageVersion.number? p).any fun (_, rest) => rest.isEmpty) &&
      (stage.isEmpty || areIdentifiers true (stage.drop 1))

/-- The version of a module in a line. -/
def moduleVersion (verb path word : Text) : Except LineCause Text :=
  match wordText word with
  | .error c => .error (.badModuleVersion verb path word (some c))
  | .ok v => if isModuleVersion v then .ok v else .error (.badModuleVersion verb path v none)

/-! ## Lines -/

/-- A path leads to a directory by its form. -/
def isDirectoryPath (p : Text) : Bool :=
  p == utf8 "." || p == utf8 ".." ||
    ["./", "../", "/", ".\\", "..\\", "\\"].any fun lead => Text.startsWith p (utf8 lead)

/-- A line that names another module and its version. -/
def checkVersioned (verb : Text) : List Text → Except LineCause Unit
  | [path, version] => do
    let path ← argument path
    let _ ← moduleVersion verb path version
  | _ => .error (.versionUsage verb)

/-- What a module is replaced by. -/
def checkReplacement (verb : Text) : List Text → Except LineCause Unit
  | [path] => do
    let path ← argument path
    if !isDirectoryPath path then
      throw (if path.contains 0x40 then .replacementAt else .noReplacement)
  | [path, version] => do
    let path ← argument path
    let _ ← moduleVersion verb path version
    if isDirectoryPath path then throw (.versionOfDirectory path)
  | _ => .error (.replaceUsage verb)

/-- A line that replaces a module. -/
def checkReplace (verb : Text) (args : List Text) : Except LineCause Unit :=
  let arrow := utf8 "=>"
  match args with
  | path :: mark :: rest =>
    if mark == arrow then
      if rest.isEmpty || 2 < rest.length then .error (.replaceUsage verb)
      else do
        let _ ← argument path
        checkReplacement verb rest
    else
      match rest with
      | mark' :: rest =>
        if mark' != arrow || rest.isEmpty || 2 < rest.length then .error (.replaceUsage verb)
        else do
          let path ← argument path
          let _ ← moduleVersion verb path mark
          checkReplacement verb rest
      | [] => .error (.replaceUsage verb)
  | _ => .error (.replaceUsage verb)

/-- A version or an interval of versions, and what follows it. -/
def checkInterval (verb : Text) : List Text → Except LineCause (List Text)
  | [] => .error .noInterval
  | word :: rest =>
    if word == utf8 "(" then .error .noInterval
    else if word != utf8 "[" then do
      let _ ← moduleVersion verb [] word
      return rest
    else
      match rest with
      | [] => .error (.expectedAfter "version" "'['")
      | low :: rest => do
        let _ ← moduleVersion verb [] low
        match rest with
        | comma :: rest =>
          if comma != utf8 "," then throw (.expectedAfter "','" "version")
          match rest with
          | [] => throw (.expectedAfter "version" "','")
          | high :: rest => do
            let _ ← moduleVersion verb [] high
            match rest with
            | close :: rest =>
              if close != utf8 "]" then throw (.expectedAfter "']'" "version")
              return rest
            | [] => throw (.expectedAfter "']'" "version")
        | [] => throw (.expectedAfter "','" "version")

/-- A line that takes versions back. -/
def checkRetract (verb : Text) (args : List Text) : Except LineCause Unit := do
  match ← checkInterval verb args with
  | [] => pure ()
  | word :: _ => throw (.wordAfterVersion word)

/-- The file with the path of the module. A second line is refused even if the first one was. -/
def addModule (f : ModuleFile) (args : List Text) : ModuleFile × Option LineCause :=
  if f.path.isSome then (f, some (.repeated "module"))
  else
    match args with
    | [word] =>
      match argument word with
      | .ok path => ({ f with path := some path }, none)
      | .error c => ({ f with path := some [] }, some c)
    | _ => ({ f with path := some [] }, some .moduleUsage)

/-- The file with the version of the language. Where it is not read strictly, what follows the first
two numbers is left out. -/
def addVersion (f : ModuleFile) (strict : Bool) (args : List Text) : ModuleFile × Option LineCause :=
  if f.version.isSome then (f, some (.repeated "go"))
  else
    match args with
    | [word] =>
      if isLanguageVersion word then ({ f with version := some word }, none)
      else
        match if strict then none else shortened? word with
        | some v => ({ f with version := some v }, none)
        | none => (f, some (.badVersion word))
    | _ => (f, some (.notOneArgument "go"))

/-- The file with a toolchain, which only has to be well-formed. -/
def addToolchain (f : ModuleFile) (args : List Text) : ModuleFile × Option LineCause :=
  if f.hasToolchain then (f, some (.repeated "toolchain"))
  else
    match args with
    | [word] =>
      if isToolchain word then ({ f with hasToolchain := true }, none)
      else (f, some (.badToolchain word))
    | _ => (f, some (.notOneArgument "toolchain"))

/-- The directives that count even in a file that is not read strictly. -/
def basicDirectives : List Text := ["go", "module", "retract", "require"].map utf8

/-- The file with one more line. Where it is not read strictly, unknown directives and faulty versions
that are taken back do not matter. -/
def add (f : ModuleFile) (strict : Bool) (verb : Text) (args : List Text) : ModuleFile × Option LineCause :=
  let check := fun (r : Except LineCause Unit) =>
    (f, match r with
      | .ok _ => none
      | .error c => some c)
  if !strict && !basicDirectives.contains verb then (f, none)
  else if verb == utf8 "go" then f.addVersion strict args
  else if verb == utf8 "toolchain" then f.addToolchain args
  else if verb == utf8 "module" then f.addModule args
  else if verb == utf8 "require" || verb == utf8 "exclude" then check (checkVersioned verb args)
  else if verb == utf8 "replace" then check (checkReplace verb args)
  else if verb == utf8 "retract" then
    if strict then check (checkRetract verb args) else (f, none)
  else (f, some (.unknownDirective verb))

/-- The directives that blocks may have. -/
def blockDirectives : List Text := ["module", "require", "exclude", "replace", "retract"].map utf8

/-- The file with one more line at a place, and the faults with its own one. -/
def addLine (strict : Bool) (verb : Text) (args : List Text) (spot : Spot)
    (s : ModuleFile × List LineFault) : ModuleFile × List LineFault :=
  let (f, c) := s.1.add strict verb args
  (f, s.2 ++ c.toList.map fun c => ⟨spot, c⟩)

/-- The file with one more statement. -/
def addStatement (strict : Bool) (s : ModuleFile × List LineFault) :
    Statement → ModuleFile × List LineFault
  | .line l => addLine strict (l.words.head?.getD []) l.words.tail l.start s
  | .block head lines =>
    match head.words with
    | [verb] =>
      if blockDirectives.contains verb then
        lines.foldl (fun s l => addLine strict verb l.words l.start s) s
      else if strict then (s.1, s.2 ++ [⟨head.start, .unknownBlock head.words⟩])
      else s
    | words => if strict then (s.1, s.2 ++ [⟨head.start, .unknownBlock words⟩]) else s

/-- What statements say, and the faults of their lines. -/
def ofStatements (strict : Bool) (ss : List Statement) : ModuleFile × List LineFault :=
  ss.foldl (addStatement strict) (empty, [])

/-- The version is later than the one at hand. -/
def isTooNew (f : ModuleFile) : Bool :=
  (f.version.bind LanguageVersion.parse?).any fun v => v.isProper && v.isAfter .current

/-! ## Whole files -/

end ModuleFile

/-- Why a module file is refused. -/
inductive ModuleFault where
  | malformed (fault : ModuleFile.SyntaxFault)
  | lines (faults : List ModuleFile.LineFault)
  | tooNew (version : Text)
  | unnamed
  | badPath (path : Text) (cause : ImportPath.Cause)
deriving DecidableEq

namespace ModuleFault

/-- The message of a fault in a file with a name. -/
def message (file : Text) : ModuleFault → Text
  | .malformed f =>
    utf8 "errors parsing " ++ file ++ utf8 ":\n" ++ f.spot.text file ++ utf8 ": " ++ f.cause.message file
  | .lines fs =>
    utf8 "errors parsing " ++ file ++ utf8 ":\n" ++
      Text.join "\n" (fs.map fun f => f.spot.text file ++ utf8 ": " ++ f.cause.message)
  | .tooNew v =>
    file ++ utf8 " requires go >= " ++ v ++ utf8 " (running go " ++ LanguageVersion.current.text ++
      utf8 "; GOTOOLCHAIN=local)"
  | .unnamed =>
    utf8 "error reading " ++ file ++
      utf8 ": missing module declaration. To specify the module path:\n\tgo mod edit -module=example.com/mod"
  | .badPath path c => utf8 "malformed module path " ++ Text.quoted path ++ utf8 ": " ++ c.message

end ModuleFault

namespace ModuleFile

/-- Reads a module file: the path of the module and the version of the language. A module that names
no version is written in the one at hand. -/
def parse (content : Text) : Except ModuleFault (Text × LanguageVersion) := do
  let ss ← (read content).mapError .malformed
  let (f, faults) := ofStatements true ss
  let (lax, laxFaults) := ofStatements false ss
  if !faults.isEmpty then
    throw (if laxFaults.isEmpty && lax.isTooNew then .tooNew (lax.version.getD []) else .lines faults)
  if f.isTooNew then throw (.tooNew (f.version.getD []))
  match f.path with
  | none => throw .unnamed
  | some path =>
    match ImportPath.fault? path with
    | some c => throw (.badPath path c)
    | none => return (path, (f.version.bind LanguageVersion.parse?).getD .current)

end ModuleFile

end CaseCover
