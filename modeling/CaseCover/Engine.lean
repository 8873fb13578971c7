import CaseCover.Analysis
import CaseCover.Config.Data
import CaseCover.Ignore
import CaseCover.Issue
import CaseCover.Source.Parse.Grammar
import CaseCover.Suppression

/-!
# The engine

An engine holds the rules with their severities, the rules that are ignored and the patterns of
ignored paths. It checks packages and reports issues: what its rules find, without what comments
suppress and what lies in ignored paths, in the order of issues.
-/

namespace CaseCover

/-- A registered rule. -/
structure Rule where
  name : Text
  severity : Severity
  options : Options
deriving DecidableEq

/-- The name of the rule that looks for constructs that leave values out. -/
def Rule.totality : Text := "totality-check"

/-- An engine. `cwd` is the current directory, from which a relative root counts. -/
structure Engine where
  cwd : Text
  root : Text
  tests : Bool
  rules : List Rule
  ignoredRules : List Text
  ignoredPaths : List Text
deriving DecidableEq

/-- Why a source has no issues to show. -/
inductive EngineFault where
  | parse (fault : SourceFault)
  | types (fault : TypeFault)
deriving DecidableEq

namespace Engine

/-- The names of all rules. -/
def knownRules : List Text := [Rule.totality]

/-- The rule of a name with a configuration. -/
def ruleOf (name : Text) (c : RuleConfig) : Rule :=
  ⟨name, c.severity, ⟨c.flag "switch" Options.default.switches, c.flag "if-chain" Options.default.ifChains⟩⟩

/-- An engine for a root directory. Rules without a configuration get the empty one; a rule that is
off is ignored; configurations of unknown rules have no effect. -/
def new (cwd root : Text) (configs : List (Text × RuleConfig)) : Engine :=
  knownRules.foldl (fun e name =>
    let c := ((configs.find? fun p => p.1 == name).map (·.2)).getD RuleConfig.empty
    if c.severity = .off then { e with ignoredRules := e.ignoredRules ++ [name] }
    else { e with rules := e.rules ++ [ruleOf name c] }) ⟨cwd, root, false, [], [], []⟩

/-- Ignores a rule. -/
def withoutRule (e : Engine) (name : Text) : Engine :=
  if e.ignoredRules.contains name then e else { e with ignoredRules := e.ignoredRules ++ [name] }

/-- Ignores the files that match a pattern. -/
def withoutPath (e : Engine) (pattern : Text) : Engine :=
  { e with ignoredPaths := Ignore.add e.ignoredPaths pattern }

/-- Changes the severity of a registered rule. -/
def withSeverity (e : Engine) (name : Text) (s : Severity) : Engine :=
  { e with rules := e.rules.map fun r => if r.name = name then { r with severity := s } else r }

/-- Looks at test files, too, or not. -/
def withTests (e : Engine) (tests : Bool) : Engine := { e with tests := tests }

/-- A file is ignored. -/
def ignoresFile (e : Engine) (filename : Text) : Bool :=
  Ignore.covers e.cwd e.root e.ignoredPaths filename

/-! ## Issues -/

/-- The text of one related place. -/
def relatedText (place : Pos → Place) (r : Related) : Text :=
  let p := place r.pos
  if p.isKnown then r.message ++ utf8 " (" ++ p.filename ++ utf8 ":" ++ Text.ofInt p.line ++ utf8 ")"
  else r.message

/-- The note of an issue: its related places. -/
def noteOf (place : Pos → Place) (related : List Related) : Text :=
  Text.join "; " (related.map (relatedText place))

/-- The issue of a diagnostic. -/
def issueOf (place : Pos → Place) (r : Rule) (d : Diagnostic) : Issue :=
  let start := place d.pos
  ⟨r.name, d.category, start.filename, d.message, noteOf place d.related, start, place d.stop,
   r.severity⟩

/-- What a rule reports about files. -/
def ruleIssues (place : Pos → Place) (o : Shapes) (files : List SourceFile) (r : Rule) : List Issue :=
  (Analysis.diagnostics o r.options files).map (issueOf place r)

/-- What one rule reports. -/
structure RuleReport where
  rule : Text
  issues : List Issue

/-- An issue counts: no comment suppresses it, and its file is not ignored. -/
def counts (e : Engine) (s : Suppression) (i : Issue) : Bool :=
  !(s.suppresses i.start i.rule || e.ignoresFile i.filename)

/-- Brings the reports of rules together: the issues that count of all rules that are not ignored,
in the order of issues. -/
def gather (e : Engine) (s : Suppression) (reports : List RuleReport) : List Issue :=
  let active := reports.filter fun r => !e.ignoredRules.contains r.rule
  Issue.sort ((active.flatMap (·.issues)).filter (e.counts s))

/-- The issues of files. -/
def issuesOf (e : Engine) (place : Pos → Place) (o : Shapes) (files : List SourceFile) : List Issue :=
  e.gather (Suppression.ofFiles place files)
    (e.rules.map fun r => ⟨r.name, ruleIssues place o files r⟩)

/-! ## Sources -/

/-- The files of a package to be read. -/
structure PackageSource where
  path : Text
  files : List (Text × Text)

/-- Reads the files of a package into a set of files. -/
def readFiles (files : FileSet) : List (Text × Text) → Except SourceFault (List SourceFile × FileSet)
  | [] => .ok ([], files)
  | (name, text) :: rest => do
    let (f, files) ← SourceFile.parse files name text
    let (fs, files) ← readFiles files rest
    return (f :: fs, files)

/-- The name of the file in which a source held in memory is. -/
def sourceName : Text := "source.go"

/-- Reads packages one after the other. -/
def readPackages (files : FileSet) :
    List PackageSource → Except SourceFault (List (Text × List SourceFile) × FileSet)
  | [] => .ok ([], files)
  | p :: rest => do
    let (fs, files) ← readFiles files p.files
    let (ps, files) ← readPackages files rest
    return ((p.path, fs) :: ps, files)

/-- Checks packages one after the other, each able to import those before it; gives the last. -/
def checkPackages (w : World) : List (Text × List SourceFile) →
    Except TypeFault (Option (Checked × List SourceFile))
  | [] => .ok none
  | [(path, fs)] => do return some (← w.check path none fs, fs)
  | (path, fs) :: rest => do
    let c ← w.check path none fs
    checkPackages c.world rest

/-- Reads and checks packages, and gives the last of them. -/
def load (ps : List PackageSource) :
    Except EngineFault (Option (Checked × List SourceFile) × FileSet) :=
  match readPackages FileSet.empty ps with
  | .error f => .error (.parse f)
  | .ok (packages, files) =>
    match checkPackages World.initial packages with
    | .error f => .error (.types f)
    | .ok last => .ok (last, files)

/-- The issues of the last of some packages. -/
def lintPackages (e : Engine) (ps : List PackageSource) : Except EngineFault (List Issue) := do
  let (last, files) ← load ps
  match last with
  | some (c, fs) => return e.issuesOf files.place c.shapes fs
  | none => return []

/-- The issues of a single source held in memory. Its package has the name as path. -/
def lintSource (e : Engine) (source : Text) : Except EngineFault (List Issue) :=
  match SourceFile.parse FileSet.empty sourceName source with
  | .error f => .error (.parse f)
  | .ok (f, files) =>
    match World.initial.check f.name.name none [f] with
    | .error t => .error (.types t)
    | .ok c => .ok (e.issuesOf files.place c.shapes [f])

/-- The issues of sources, up to the first fault. -/
def lintSources (e : Engine) : List Text → Except EngineFault (List Issue)
  | [] => .ok []
  | s :: rest => do
    let here ← e.lintSource s
    let there ← e.lintSources rest
    return here ++ there

end Engine

end CaseCover
