import CaseCover.Coverage.Finding
import CaseCover.Enum
import CaseCover.Source.Statements
import CaseCover.Typing.Package

/-!
# Analysis of a package

Every switch statement and every if statement of a package is judged in source order. The links of
an if chain that has been recognised as a whole are not judged again. A statement is known by the turn
at which it is visited: equal statements may stand in several places.
-/

namespace CaseCover

/-- Which constructs are judged. -/
structure Options where
  switches : Bool
  ifChains : Bool
deriving DecidableEq

/-- Both kinds are judged. -/
def Options.default : Options := ⟨true, true⟩

/-- Why an option could not be set. -/
inductive OptionFault where
  | unknown (name : Text)
  | value
deriving DecidableEq

/-- The message of the fault. -/
def OptionFault.message : OptionFault → Text
  | .unknown name => utf8 "no such flag -" ++ name
  | .value => "parse error"

/-- Reads a truth value. -/
def truthValue? (t : Text) : Option Bool :=
  if ["1", "t", "T", "true", "TRUE", "True"].any fun w => utf8 w == t then some true
  else if ["0", "f", "F", "false", "FALSE", "False"].any fun w => utf8 w == t then some false
  else none

/-- The options after one has been set from a text. -/
def Options.set (o : Options) (name value : Text) : Except OptionFault Options :=
  if name == utf8 "switch" then
    match truthValue? value with
    | some b => .ok { o with switches := b }
    | none => .error .value
  else if name == utf8 "ifchain" then
    match truthValue? value with
    | some b => .ok { o with ifChains := b }
    | none => .error .value
  else .error (.unknown name)

/-- The options after some have been set one after the other. -/
def Options.setAll (o : Options) (flags : List (Text × Text)) : Except OptionFault Options :=
  flags.foldlM (fun o (name, value) => o.set name value) o

/-- The analysis cannot run after another one that it does not know. -/
structure PrerequisiteFault where
  name : Text
deriving DecidableEq

/-- The message of the fault. -/
def PrerequisiteFault.message (f : PrerequisiteFault) : Text :=
  utf8 "analyzer totality: unsupported prerequisite " ++ f.name

/-- A place that a diagnostic points to besides its own. -/
structure Related where
  pos : Pos
  stop : Pos
  message : Text
deriving DecidableEq

/-- What is said about a construct. It covers the header of the construct. -/
structure Diagnostic where
  pos : Pos
  stop : Pos
  category : Text
  message : Text
  related : List Related
deriving DecidableEq

namespace Analysis

/-- Where the body of a construct opens. -/
def headerStop : Stmt → Pos
  | .switchOn _ _ _ (.block start _ _) => start
  | .ifChain _ _ _ (.block start _ _) _ => start
  | s => s.stop

/-- A missing constant as a related place; only one with a name and a position is. -/
def relatedTo (l : Literal) : Option Related :=
  if l.name.isEmpty || l.pos = 0 then none
  else some ⟨l.pos, l.pos + l.name.length, l.name ++ utf8 " not matched"⟩

/-- The diagnostic of a finding. -/
def diagnostic (f : Finding) : Diagnostic :=
  ⟨f.node.pos, headerStop f.node, "totality", f.message, f.unmatched.filterMap relatedTo⟩

/-- The links of a chain with the turns at which they are visited, when the first one is visited at
turn `n`: what is inside a link comes before the next one. -/
def linksAt (n : Nat) : Stmt → List (Nat × Stmt)
  | .ifChain pos init cond body other =>
    let inside := init.statements ++ cond.statements ++ body.statements
    (n, .ifChain pos init cond body other) :: linksAt (n + 1 + inside.length) other
  | _ => []

/-- The turns of the links after the first one. -/
def laterTurns (n : Nat) (s : Stmt) : List Nat := ((linksAt n s).drop 1).map (·.1)

/-- Judges the statement that is visited at turn `n`. `covered` holds the turns of links that need
no judging; gives the verdict, and the turns after it. -/
def judge (o : Shapes) (opts : Options) (covered : List Nat) (n : Nat) (s : Stmt) :
    Option Diagnostic × List Nat :=
  match s with
  | .switchOn .. =>
    if opts.switches then ((Finding.of? o s).map diagnostic, covered) else (none, covered)
  | .ifChain .. =>
    if !opts.ifChains || covered.contains n then (none, covered)
    else
      match Match.ofChain? o s with
      | some m => ((Finding.ofMatch? s m).map diagnostic, laterTurns n s ++ covered)
      | none => (none, covered)
  | _ => (none, covered)

/-- Judges statements in order from turn `n` on: a verdict for each of them. -/
def verdictsFrom (o : Shapes) (opts : Options) : List Nat → Nat → List Stmt →
    List (Option Diagnostic)
  | _, _, [] => []
  | covered, n, s :: ss =>
    let (verdict, covered) := judge o opts covered n s
    verdict :: verdictsFrom o opts covered (n + 1) ss

/-- The statements of files in the order in which they are visited. -/
def visited (files : List SourceFile) : List Stmt := files.flatMap SourceFile.statements

/-- The verdicts on all statements of files. -/
def verdicts (o : Shapes) (opts : Options) (files : List SourceFile) : List (Option Diagnostic) :=
  verdictsFrom o opts [] 0 (visited files)

/-- The diagnostics of files. -/
def diagnostics (o : Shapes) (opts : Options) (files : List SourceFile) : List Diagnostic :=
  (verdicts o opts files).filterMap id

/-- Runs the analysis after others; none of them is supported. -/
def run (prerequisites : List Text) (o : Shapes) (opts : Options) (files : List SourceFile) :
    Except PrerequisiteFault (List Diagnostic) :=
  match prerequisites with
  | name :: _ => .error ⟨name⟩
  | [] => .ok (diagnostics o opts files)

end Analysis

/-- The constants of a package. -/
def Package.constScope (p : Package) : ConstScope :=
  ⟨p.path, p.scope.filterMap fun d =>
    match d.entity with
    | .constant t c => some ⟨d.name, d.pos, t, some c⟩
    | _ => none⟩

namespace Checked

/-- The viewpoint of a checked package. -/
def viewpoint (c : Checked) : Viewpoint :=
  ⟨c.world.table, c.world.packages.map Package.constScope, some c.package.path⟩

/-- What is known about an expression. -/
def query (c : Checked) (e : Expr) : Query :=
  match e with
  | .absent => .unknown
  | e =>
    let start := e.pos
    let stop := e.stop
    match c.facts.find? fun f => f.start == start && f.stop == stop with
    | none => .unknown
    | some f =>
      match f.value with
      | some v => .constant ⟨some v⟩
      | none => .typed f.type

/-- The shapes of the expressions of a checked package. -/
def shapes (c : Checked) : Shapes := fun e => Enum.answer c.viewpoint (c.query e)

end Checked

end CaseCover
