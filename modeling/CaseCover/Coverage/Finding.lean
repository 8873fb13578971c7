import CaseCover.Coverage.Match

/-!
# Findings

A finding is a recognised construct that leaves out some value of its domain.
-/

namespace CaseCover

/-- A recognised construct that does not handle every value. -/
structure Finding where
  node : Stmt
  found : Match
  missing : List Value

namespace Finding

/-- The members of the domain whose value is missing, all aliases of a value included. -/
def unmatched (f : Finding) : List Literal :=
  f.found.domain.filter fun l => Value.occursIn f.missing l.value

/-- The message of the finding. -/
def message (f : Finding) : Text := missingMessage f.missing

/-- The finding of a recognised construct, if it leaves something out. -/
def ofMatch? (node : Stmt) (m : Match) : Option Finding :=
  let missing := m.missing
  if missing.isEmpty then none else some ⟨node, m, missing⟩

end Finding

/-- Recognises a switch statement or a chain of if statements. -/
def recognise (o : Shapes) (s : Stmt) : Option Match :=
  match s with
  | .switchOn .. => Match.ofSwitch? o s
  | .ifChain .. => Match.ofChain? o s
  | _ => none

/-- Judges a single statement: a finding when it is recognised and leaves a value out. -/
def Finding.of? (o : Shapes) (s : Stmt) : Option Finding :=
  (recognise o s).bind (Finding.ofMatch? s)

end CaseCover
