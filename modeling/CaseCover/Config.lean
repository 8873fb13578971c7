import CaseCover.Config.Decode
import CaseCover.Engine

/-!
# The configuration

The default configuration, how it is written down, and the engine that a configuration asks for.
-/

namespace CaseCover

namespace Yaml

/-- A text stands without quotes when it has only letters, digits and dashes and is read as the
same text, and not as a truth value either. -/
def isBare (t : Text) : Bool :=
  t.all (fun b => b == 0x2D || (Text.digitValue b).isSome) && (looks true t).1 == .str &&
    (Decode.boolWords.lookup t).isNone

/-- A text as a scalar. -/
def written (t : Text) : Text := if isBare t then t else Text.quoted t

/-- A line with a key at an indentation, and with the text of a value if there is one. -/
def line (indent : Nat) (key value : Text) : Text :=
  Text.repeated (4 * indent) 0x20 ++ key ++ utf8 ":" ++
    (if value.isEmpty then [] else 0x20 :: value) ++ utf8 "\n"

end Yaml

/-- The name of a severity as a scalar. -/
def Severity.written (s : Severity) : Text := Yaml.written s.name

/-- The document of a rule that has only a severity. -/
def RuleConfig.severityDocument (s : Severity) : Text := Yaml.line 0 "severity" s.written

namespace Config

/-- The default configuration. -/
def default : Config :=
  ⟨"totality", false, [], some [(Rule.totality, ⟨.error,
    some [("if-chain", .bool true), ("switch", .bool true)]⟩)]⟩

/-- The document of the default configuration. -/
def defaultDocument : Text :=
  Yaml.line 0 "name" (Yaml.written default.name) ++
  Yaml.line 0 "tests" (if default.tests then "true" else "false") ++
  Yaml.line 0 "rules" [] ++
  (default.rules.getD []).flatMap fun (name, c) =>
    Yaml.line 1 name [] ++ Yaml.line 2 "severity" c.severity.written ++ Yaml.line 2 "data" [] ++
    (c.data.getD []).flatMap fun (key, v) =>
      match v with
      | .bool b => Yaml.line 3 key (if b then "true" else "false")
      | _ => []

/-- Reads a configuration. -/
def parse (t : Text) : Except ConfigFault Config := Decode.document Decode.config t default

/-- The engine of a configuration. -/
def engine (c : Config) (cwd root : Text) : Engine :=
  c.ignorePaths.foldl Engine.withoutPath
    ((Engine.new cwd root (c.rules.getD [])).withTests c.tests)

end Config

end CaseCover
