import CaseCover.Yaml.Token

/-!
# Nodes of a document

A document is a tree of scalars, sequences and mappings. A node may carry a tag, and an anchor by
which later nodes stand for it again. Only the first document of a text is read; what comes after
its root is not looked at, except that the two tokens after the next one must be readable.
-/

namespace CaseCover.Yaml

/-- The kinds of values that a tag can ask for. -/
inductive Tag where
  | null
  | bool
  | int
  | float
  | timestamp
  | str
  | binary
  | merge
  | map
  | seq
  | other (name : Text)
deriving DecidableEq

namespace Tag

/-- The tags of the standard with their names. -/
def standard : List (Text × Tag) :=
  [("null", .null), ("bool", .bool), ("int", .int), ("float", .float), ("timestamp", .timestamp),
   ("str", .str), ("binary", .binary), ("merge", .merge), ("map", .map), ("seq", .seq)]

/-- What the names of all standard tags start with. -/
def standardLead : Text := "tag:yaml.org,2002:"

/-- The tag with a name. -/
def ofName (name : Text) : Tag :=
  let known := (Text.stripLead? standardLead name).or (Text.stripLead? "!!" name)
  (known.bind fun n => standard.lookup n).getD (.other name)

end Tag

/-- A node. A tag is absent where none is written. An alias has the node that it stands for, unless
the alias lies inside that node. -/
inductive Node where
  | scalar (tag : Option Tag) (style : Style) (text : Text)
  | sequence (tag : Option Tag) (items : List Node)
  | mapping (tag : Option Tag) (keys values : List Node)
  | alias (name : Text) (target : Option Node)
deriving Inhabited

/-- Why a text is no document. -/
inductive Fault where
  | malformed
  | unknownAnchor (name : Text)
deriving DecidableEq

/-- What is left of the tokens, the names of tags, and the anchors, each with its node once that is
complete. The last anchor of a name counts. -/
structure Composing where
  tokens : List Token
  tagLeads : List (Text × Text)
  anchors : List (Text × Option Node)

/-- Reading nodes from tokens. -/
abbrev Compose := StateT Composing (Except Fault)

namespace Compose

/-- The next token. It is given only when the two tokens after it can be read, too. -/
def peek : Compose Token := do
  let ts := (← get).tokens
  if (ts.take 3).contains .broken then throw .malformed
  return ts.head?.getD .streamEnd

/-- Passes over a token. -/
def skip : Compose Unit := modify fun s => { s with tokens := s.tokens.drop 1 }

/-- The empty node. -/
def emptyNode : Node := .scalar none .plain []

/-- Notes an anchor whose node is not complete, or now is. -/
def note (anchor : Option Text) (n : Option Node) : Compose Unit :=
  match anchor with
  | some a => modify fun s => { s with anchors := (a, n) :: s.anchors }
  | none => pure ()

/-- The node of a given alias. -/
def aliased (name : Text) : Compose Node := do
  match (← get).anchors.lookup name with
  | some target => return .alias name target
  | none => throw (.unknownAnchor name)

/-- The tag with a handle and a suffix; the tag `!` says nothing. -/
def tagOf (handle suffix : Text) : Compose (Option Tag) := do
  let name ←
    if handle.isEmpty then pure suffix
    else
      match (← get).tagLeads.lookup handle with
      | some lead => pure (lead ++ suffix)
      | none => throw .malformed
  if name.isEmpty then throw .malformed
  return if name == utf8 "!" then none else some (Tag.ofName name)

/-- An anchor and a tag, in either order, each with whether it is written. -/
def properties : Compose (Option Text × Bool × Option Tag) := do
  match ← peek with
  | .anchor a =>
    skip
    match ← peek with
    | .tag h s => do
      skip
      return (some a, true, ← tagOf h s)
    | _ => return (some a, false, none)
  | .tag h s =>
    skip
    match ← peek with
    | .anchor a => do
      skip
      return (some a, true, ← tagOf h s)
    | _ => return (none, true, ← tagOf h s)
  | _ => return (none, false, none)

/-- The next token is one of the given ones. -/
def nextIs (ts : List Token) : Compose Bool := do return ts.contains (← peek)

/-- Where a node stands. Block nodes may only stand in blocks, and a sequence without indentation
only as the value or key of a block mapping. -/
inductive Position where
  | flow
  | block
  | entry
deriving DecidableEq

/-- A node of which only an anchor or a tag is written: an empty scalar. -/
def bareNode (anchor : Option Text) (tagged : Bool) (tag : Option Tag) : Compose Node := do
  if anchor.isNone && !tagged then throw .malformed
  let n := Node.scalar tag .plain []
  note anchor (some n)
  return n

mutual

/-- A node at a position. -/
def node : Nat → Position → Compose Node
  | 0, _ => throw .malformed
  | fuel + 1, place => do
    if let .alias name := ← peek then
      skip
      return ← aliased name
    let (anchor, tagged, tag) ← properties
    let isBlock := place ≠ .flow
    match ← peek with
    | .scalar style text =>
      skip
      let n := Node.scalar tag style text
      note anchor (some n)
      return n
    | .sequenceOpen =>
      note anchor none
      skip
      let n := Node.sequence tag (← flowItems fuel true)
      note anchor (some n)
      return n
    | .mappingOpen =>
      note anchor none
      skip
      let es ← flowEntries fuel true
      let n := Node.mapping tag (es.map (·.1)) (es.map (·.2))
      note anchor (some n)
      return n
    | .dash =>
      if place = .entry then
        note anchor none
        let n := Node.sequence tag (← bareItems fuel)
        note anchor (some n)
        return n
      else bareNode anchor tagged tag
    | .sequenceBlock =>
      if isBlock then
        note anchor none
        skip
        let n := Node.sequence tag (← blockItems fuel)
        note anchor (some n)
        return n
      else bareNode anchor tagged tag
    | .mappingBlock =>
      if isBlock then
        note anchor none
        skip
        let es ← blockEntries fuel
        let n := Node.mapping tag (es.map (·.1)) (es.map (·.2))
        note anchor (some n)
        return n
      else bareNode anchor tagged tag
    | _ => bareNode anchor tagged tag

/-- The items of a block sequence, up to its end. -/
def blockItems : Nat → Compose (List Node)
  | 0 => throw .malformed
  | fuel + 1 => do
    match ← peek with
    | .dash =>
      skip
      let n ← if ← nextIs [.dash, .blockEnd] then pure emptyNode else node fuel .block
      return n :: (← blockItems fuel)
    | .blockEnd =>
      skip
      return []
    | _ => throw .malformed

/-- The items of a sequence that has no indentation of its own. -/
def bareItems : Nat → Compose (List Node)
  | 0 => throw .malformed
  | fuel + 1 => do
    match ← peek with
    | .dash =>
      skip
      let n ← if ← nextIs [.dash, .key, .value, .blockEnd] then pure emptyNode else node fuel .block
      return n :: (← bareItems fuel)
    | _ => return []

/-- The entries of a block mapping, up to its end. -/
def blockEntries : Nat → Compose (List (Node × Node))
  | 0 => throw .malformed
  | fuel + 1 => do
    match ← peek with
    | .key =>
      skip
      let k ← if ← nextIs [.key, .value, .blockEnd] then pure emptyNode else node fuel .entry
      let v ← blockValue fuel
      return (k, v) :: (← blockEntries fuel)
    | .blockEnd =>
      skip
      return []
    | _ => throw .malformed

/-- The value of an entry of a block mapping. -/
def blockValue : Nat → Compose Node
  | 0 => throw .malformed
  | fuel + 1 => do
    if ← nextIs [.value] then
      skip
      if ← nextIs [.key, .value, .blockEnd] then return emptyNode else node fuel .entry
    else return emptyNode

/-- The items of a sequence in brackets. A key among them starts a mapping with one entry. -/
def flowItems : Nat → Bool → Compose (List Node)
  | 0, _ => throw .malformed
  | fuel + 1, first => do
    if ← nextIs [.sequenceClose] then
      skip
      return []
    if !first then
      if ← nextIs [.comma] then skip else throw .malformed
    match ← peek with
    | .key =>
      skip
      let k ←
        if ← nextIs [.value, .comma, .sequenceClose] then do
          skip
          pure emptyNode
        else node fuel .flow
      let v ← flowValue fuel [.comma, .sequenceClose]
      return .mapping none [k] [v] :: (← flowItems fuel false)
    | .sequenceClose =>
      skip
      return []
    | _ =>
      let n ← node fuel .flow
      return n :: (← flowItems fuel false)

/-- The entries of a mapping in braces. -/
def flowEntries : Nat → Bool → Compose (List (Node × Node))
  | 0, _ => throw .malformed
  | fuel + 1, first => do
    if ← nextIs [.mappingClose] then
      skip
      return []
    if !first then
      if ← nextIs [.comma] then skip else throw .malformed
    match ← peek with
    | .key =>
      skip
      let k ← if ← nextIs [.value, .comma, .mappingClose] then pure emptyNode else node fuel .flow
      let v ← flowValue fuel [.comma, .mappingClose]
      return (k, v) :: (← flowEntries fuel false)
    | .mappingClose =>
      skip
      return []
    | _ =>
      let k ← node fuel .flow
      return (k, emptyNode) :: (← flowEntries fuel false)

/-- The value of an entry in brackets or braces, empty before one of the given tokens. -/
def flowValue : Nat → List Token → Compose Node
  | 0, _ => throw .malformed
  | fuel + 1, ends => do
    if ← nextIs [.value] then
      skip
      if ← nextIs ends then return emptyNode else node fuel .flow
    else return emptyNode

end

/-- The names of tags that need no directive. -/
def standardLeads : List (Text × Text) := [("!", "!"), ("!!", Tag.standardLead)]

/-- The directives before a document. Only version 1.1 is known, and nothing may be said twice. -/
def directives : Nat → Bool → List (Text × Text) → Compose Unit
  | 0, _, _ => throw .malformed
  | fuel + 1, versioned, leads => do
    match ← peek with
    | .version major minor =>
      if versioned || major ≠ 1 || minor ≠ 1 then throw .malformed
      skip
      directives fuel true leads
    | .tagAlias handle lead =>
      if (leads.lookup handle).isSome then throw .malformed
      skip
      directives fuel versioned ((handle, lead) :: leads)
    | _ => modify fun s => { s with tagLeads := leads ++ standardLeads }

/-- The first document: its root, or nothing when there is no document. -/
def document (fuel : Nat) : Compose (Option Node) := do
  let explicit ← match ← peek with
    | .version .. | .tagAlias .. | .documentStart => pure true
    | _ => pure false
  if ← nextIs [.streamEnd] then return none
  directives fuel false []
  let root ←
    if explicit then do
      if !(← nextIs [.documentStart]) then throw .malformed
      skip
      let ends ← match ← peek with
        | .version .. | .tagAlias .. | .documentStart | .documentEnd | .streamEnd => pure true
        | _ => pure false
      if ends then pure emptyNode else node fuel .block
    else node fuel .block
  let _ ← peek
  return some root

end Compose

/-- The root of the first document of a text. -/
def parse (t : Text) : Except Fault (Option Node) := do
  let ts := tokens (charactersOf t)
  let (root, _) ← (Compose.document (4 * ts.length + 8)).run ⟨ts, [], []⟩
  return root

end CaseCover.Yaml
