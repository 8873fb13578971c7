import CaseCover.Typing.Check

/-!
# Flow of control

Two judgements on the body of a function that need no types: whether it always ends with a return
or its like, and whether its labels are declared once, used, and reached in a permitted way.
-/

namespace CaseCover.Control

/-! ## Ending -/

/-- The statements without empty ones at the end. -/
def trimEmpty (ss : List Stmt) : List Stmt :=
  (ss.reverse.dropWhile fun s => match s with | .empty .. => true | _ => false).reverse

mutual

/-- A statement breaks out of the statement around it: without a label where `implicit`, or with
the given label. -/
def breaks (label : Option Text) (implicit : Bool) : Stmt → Bool
  | .labeled _ s => breaks label implicit s
  | .branch _ .brk _ target =>
    match target with
    | none => implicit
    | some t => label == some t.name
  | .block _ body _ => breaksAny label implicit body
  | .ifChain _ _ _ body other => breaks label implicit body || breaks label implicit other
  | .caseClause _ _ _ _ body => breaksAny label implicit body
  | .commClause _ _ _ _ body => breaksAny label implicit body
  | .switchOn _ _ _ body => label.isSome && breaks label false body
  | .typeSwitch _ _ _ body => label.isSome && breaks label false body
  | .selectOn _ body => label.isSome && breaks label false body
  | .loop _ _ _ _ body => label.isSome && breaks label false body
  | .iterate _ _ _ _ _ body => label.isSome && breaks label false body
  | _ => false

/-- One of the statements breaks out. -/
def breaksAny (label : Option Text) (implicit : Bool) : List Stmt → Bool
  | [] => false
  | s :: ss => breaks label implicit s || breaksAny label implicit ss

end

mutual

/-- Control never goes past the statement. -/
def ends (isPanic : Expr → Bool) (label : Option Text) : Stmt → Bool
  | .labeled l s => ends isPanic (some l.name) s
  | .expr x => isPanic x.unparen
  | .giveBack .. => true
  | .branch _ kind _ _ => kind == .goto || kind == .fall
  | .block _ body _ => endsLast isPanic body
  | .ifChain _ _ _ body other =>
    !other.isAbsent && ends isPanic none body && ends isPanic none other
  | .switchOn _ _ _ (.block _ clauses _) => endsAll isPanic label clauses && hasDefaultClause clauses
  | .typeSwitch _ _ _ (.block _ clauses _) => endsAll isPanic label clauses && hasDefaultClause clauses
  | .selectOn _ (.block _ clauses _) => endsAll isPanic label clauses
  | .loop _ _ cond _ body => cond.isAbsent && !breaks label true body
  | .caseClause _ _ _ _ body => endsLast isPanic body && !breaksAny label true body
  | .commClause _ _ _ _ body => endsLast isPanic body && !breaksAny label true body
  | _ => false

/-- Control never goes past any of the clauses. -/
def endsAll (isPanic : Expr → Bool) (label : Option Text) : List Stmt → Bool
  | [] => true
  | s :: ss => ends isPanic label s && endsAll isPanic label ss

/-- Control never goes past the last statement that is not empty. -/
def endsLast (isPanic : Expr → Bool) : List Stmt → Bool
  | [] => false
  | s :: ss =>
    if (trimEmpty ss).isEmpty then ends isPanic none s else endsLast isPanic ss

/-- One of the clauses is the default clause. -/
def hasDefaultClause : List Stmt → Bool
  | [] => false
  | .caseClause _ isDefault _ _ _ :: ss => isDefault || hasDefaultClause ss
  | _ :: ss => hasDefaultClause ss

end

/-! ## Labels -/

/-- The labels of a function: those declared, and those used. -/
structure Labels where
  declared : List Text
  used : List Text

/-- A judgement about labels. -/
abbrev LabelCheck := StateT Labels (Except TypeFault)

/-- A labeled statement: what can be done with its label inside it. -/
structure Target where
  label : Text
  canBreak : Bool
  canContinue : Bool

/-- A jump to a label that has not been met: it is spoiled when a variable is declared before the
label comes. -/
structure Jump where
  label : Ident
  spoiled : Bool

/-- How far a block has been read: the labels met in it and around it, the open jumps, and the
labeled statement that the next block inside belongs to. That is the last one with a label, or what
the block itself belongs to. -/
structure Reached where
  labels : List Text
  jumps : List Jump
  current : Option Target

/-- What can be done with the label of a statement. -/
def Target.of (label : Text) : Stmt → Target
  | .loop .. | .iterate .. => ⟨label, true, true⟩
  | .switchOn .. | .typeSwitch .. | .selectOn .. => ⟨label, true, false⟩
  | _ => ⟨label, false, false⟩

/-- The label is used. -/
def useLabel (name : Text) : LabelCheck Unit := modify fun s => { s with used := name :: s.used }

/-- A variable is declared: open jumps would pass over it. -/
def Reached.spoil (a : Reached) : Reached :=
  { a with jumps := a.jumps.map fun j => { j with spoiled := true } }

/-- The label of a statement is met: open jumps to it are closed. -/
def meetLabel (id : Ident) (s : Stmt) (a : Reached) : LabelCheck Reached := do
  if id.name == Check.blank then return a
  if (← get).declared.contains id.name then throw (.redeclared id)
  modify fun s => { s with declared := id.name :: s.declared }
  let (here, rest) := a.jumps.partition fun j => j.label.name == id.name
  if here.any (·.spoiled) then throw (.badBranch id.pos)
  if !here.isEmpty then useLabel id.name
  return ⟨id.name :: a.labels, rest, some (.of id.name s)⟩

/-- A jump to a label. -/
def branchTo (targets : List Target) (kind : BranchKind) (id : Ident) (a : Reached) :
    LabelCheck Reached := do
  let target := targets.find? fun t => t.label == id.name
  match kind with
  | .goto =>
    if a.labels.contains id.name then
      useLabel id.name
      return a
    return { a with jumps := ⟨id, false⟩ :: a.jumps }
  | .cont =>
    match target with
    | some ⟨_, _, true⟩ => useLabel id.name
    | _ => throw (.badBranch id.pos)
    return a
  | _ =>
    match target with
    | some ⟨_, true, _⟩ => useLabel id.name
    | _ => throw (.badBranch id.pos)
    return a

/-- The labels and jumps of a block inside another one, which may belong to a labeled statement. Its
labels are not seen outside. -/
def labelsInside (targets : List Target) (own : Option Target) (a : Reached)
    (body : List Target → Reached → LabelCheck Reached) : LabelCheck Reached := do
  let inner ← body (own.toList ++ targets) ⟨a.labels, [], own⟩
  return { a with jumps := inner.jumps.map (fun j => { j with spoiled := false }) ++ a.jumps }

mutual

/-- The labels and jumps of a statement. `targets` are the labeled statements that the blocks around
it belong to. -/
def labelsOf (targets : List Target) (a : Reached) : Stmt → LabelCheck Reached
  | .decl _ .vars _ _ => return a.spoil
  | .assign _ .define _ => return a.spoil
  | .labeled id s => do labelsOf targets (← meetLabel id s a) s
  | .branch _ kind _ (some id) => branchTo targets kind id a
  | .block _ body _ => labelsInside targets a.current a fun ts b => labelsOfAll ts b body
  | .ifChain _ _ _ body other => do labelsOf targets (← labelsOf targets a body) other
  | .caseClause _ _ _ _ body => labelsInside targets none a fun ts b => labelsOfAll ts b body
  | .commClause _ _ _ _ body => labelsInside targets none a fun ts b => labelsOfAll ts b body
  | .switchOn _ _ _ body => labelsOf targets a body
  | .typeSwitch _ _ _ body => labelsOf targets a body
  | .selectOn _ body => labelsOf targets a body
  | .loop _ _ _ _ body => labelsOf targets a body
  | .iterate _ _ _ _ _ body => labelsOf targets a body
  | _ => return a

/-- The labels and jumps of statements. -/
def labelsOfAll (targets : List Target) (a : Reached) : List Stmt → LabelCheck Reached
  | [] => return a
  | s :: ss => do labelsOfAll targets (← labelsOf targets a s) ss

end

/-- The labels of a function body are in order. -/
def labels (body : List Stmt) : Except TypeFault Unit := do
  let (a, s) ← (labelsOfAll [] ⟨[], [], none⟩ body).run ⟨[], []⟩
  match a.jumps with
  | j :: _ => throw (.badBranch j.label.pos)
  | [] =>
    match s.declared.find? fun l => !s.used.contains l with
    | some l => throw (.unused l)
    | none => pure ()

end CaseCover.Control
