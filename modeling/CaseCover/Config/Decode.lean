import CaseCover.Config.Scalar

/-!
# Reading a configuration

A configuration names itself, says whether tests are looked at, which paths are ignored, and how
rules are configured. It is read from a document on top of the default one: what the document does
not mention stays, but a rule that it mentions starts anew.

Values of the wrong kind, unknown fields and keys written twice do not end the reading; they are
faults only when the document has been read to its end. A text that names no severity ends it, and
so does a document most of which comes from aliases.

A mapping may take over the entries of others, of which only those with new keys count. Keys have
to be told apart for this, so a list or a mapping among them is a fault of its own.
-/

namespace CaseCover

/-- A configuration. Rules may be missing altogether. -/
structure Config where
  name : Text
  tests : Bool
  ignorePaths : List Text
  rules : Option (List (Text × RuleConfig))

/-- Why a document is no configuration. -/
inductive ConfigFault where
  | document (fault : Yaml.Fault)
  | badValue
  | mismatch
  | tooManyAliases
  | collectionKey
  | severity (fault : Severity.NameError)
deriving DecidableEq

/-- What has been met so far: something of the wrong kind, and how many nodes were read, of which
some by way of aliases. -/
structure Decoding where
  mismatched : Bool
  nodes : Nat
  aliased : Nat

/-- Reading a configuration. -/
abbrev Decode := StateT Decoding (Except ConfigFault)

namespace Decode

open Yaml

/-- Notes that something is of the wrong kind. -/
def mismatch : Decode Unit := modify fun s => { s with mismatched := true }

/-- The part of the nodes that may come from aliases: nearly all of a small document, and from
400000 nodes on less and less, down to one in ten. -/
def aliasShare (nodes : Nat) : Rat :=
  if nodes ≤ 400000 then mkRat 99 100
  else if 4000000 ≤ nodes then mkRat 1 10
  else mkRat 99 100 - mkRat 89 100 * mkRat (nodes - 400000 : Nat) 3600000

/-- Too many of the nodes come from aliases. -/
def isExcessive (nodes aliased : Nat) : Bool :=
  100 < aliased && 1000 < nodes && aliasShare nodes < mkRat aliased nodes

/-- Counts a node. -/
def count (aliased : Bool) : Decode Unit := do
  let s ← get
  let s := { s with nodes := s.nodes + 1, aliased := s.aliased + (if aliased then 1 else 0) }
  if isExcessive s.nodes s.aliased then throw .tooManyAliases
  set s

/-- A node to read, and whether it is reached by way of an alias. -/
structure Site where
  node : Yaml.Node
  aliased : Bool

namespace Site

/-- A part of a node. -/
def part (s : Site) (n : Yaml.Node) : Site := ⟨n, s.aliased⟩

/-- Counts a node, and gives the node that it stands for. -/
def enter (s : Site) : Decode Site := do
  count s.aliased
  match s.node with
  | .alias _ (some n) =>
    count true
    return ⟨n, true⟩
  | .alias _ none => throw .badValue
  | _ => return s

end Site

/-- The value of a scalar. -/
def scalar (tag : Option Tag) (style : Style) (t : Text) : Decode (Tag × Data) :=
  match scalarValue tag style t with
  | some v => pure v
  | none => throw .badValue

/-- A text: any scalar as it is written. Nothing gives no text. -/
def text (s : Site) : Decode (Option Text) := do
  match (← s.enter).node with
  | .scalar tag style t =>
    match ← scalar tag style t with
    | (_, .null) => return none
    | (.binary, .text d) => return some d
    | _ => return some t
  | _ =>
    mismatch
    return none

/-- Texts that count as truth values where one is asked for. -/
def boolWords : List (Text × Bool) :=
  (["y", "Y", "yes", "Yes", "YES", "on", "On", "ON"].map fun w => (utf8 w, true)) ++
  (["n", "N", "no", "No", "NO", "off", "Off", "OFF"].map fun w => (utf8 w, false))

/-- A truth value. -/
def bool (s : Site) : Decode (Option Bool) := do
  match (← s.enter).node with
  | .scalar tag style t =>
    match (← scalar tag style t).2 with
    | .null => return none
    | .bool b => return some b
    | .text w =>
      match boolWords.lookup w with
      | some b => return some b
      | none =>
        mismatch
        return none
    | _ =>
      mismatch
      return none
  | _ =>
    mismatch
    return none

/-- A severity in place of the current one, which stays where nothing is written. -/
def severity (current : Severity) (s : Site) : Decode Severity := do
  match ← text s with
  | none => return current
  | some t =>
    match Severity.parse t with
    | .ok s => return s
    | .error e => throw (.severity e)

/-! ## Mappings -/

/-- How a mapping is read: its keys, and what an entry does to a value. Entries of one of the fields
in `once` may be given only once. `anyKey` reads keys to compare them with those of other mappings. -/
structure Reader (κ σ : Type) where
  key : Site → Decode (Option κ)
  asData : κ → Data
  entry : σ → κ → Site → Decode σ
  once : List Text
  anyKey : Site → Decode Data

/-- A key that can be told apart from others. -/
def distinctKey (d : Data) : Decode Data := if d.isCollection then throw .collectionKey else pure d

namespace Reader

/-- The entry is a field that has been given before. -/
def isRepeated {κ σ : Type} (r : Reader κ σ) (key : Data) (given : List Data) : Bool :=
  match key with
  | .text t => r.once.contains t && given.any (Data.sameKey key)
  | _ => false

/-- What is known while the entries of a mapping are read: the value so far, the keys given, and
the keys that do not count any more when the mapping is taken over by another one. -/
structure State (σ : Type) where
  value : σ
  given : List Data
  taken : Option (List Data)

/-- Reads an entry of a mapping. -/
def step {κ σ : Type} (r : Reader κ σ) (s : Site) (st : State σ) (k v : Yaml.Node) :
    Decode (State σ) := do
  if k.isMerge then return st
  match ← r.key (s.part k) with
  | none => return st
  | some key =>
    let d := r.asData key
    let st ← match st.taken with
      | none => pure st
      | some taken => do
        if (taken.any (Data.sameKey (← distinctKey d))) then return st
        pure { st with taken := some (d :: taken) }
    if r.isRepeated d st.given then
      mismatch
      return st
    let value ← r.entry st.value key (s.part v)
    return { st with value := value, given := d :: st.given }

/-- The mappings that a mapping takes over. -/
def sources : Yaml.Node → List Yaml.Node
  | .sequence _ xs => xs
  | n => [n]

/-- The node is a mapping or an alias of one. -/
def isMapping : Yaml.Node → Bool
  | .mapping .. => true
  | .alias _ (some (.mapping ..)) => true
  | _ => false

/-- Reads a mapping on top of a value, and then the mappings it takes over, going at most so deep.
`taken` has the keys that do not count. -/
def mapping {κ σ : Type} (r : Reader κ σ) : Nat → Site → Option (List Data) → σ →
    Decode (σ × Option (List Data))
  | 0, _, _, _ => throw .badValue
  | fuel + 1, s, taken, value => do
    match s.node with
    | .mapping _ keys values =>
      if Node.repeats keys then
        mismatch
        return (value, taken)
      let st ← (keys.zip values).foldlM (fun st (k, v) => r.step s st k v) ⟨value, [], taken⟩
      match ((keys.zip values).reverse.find? fun e => e.1.isMerge) with
      | none => return (st.value, st.taken)
      | some (_, source) =>
        let own ← match st.taken with
          | some own => pure own
          | none => keys.mapM fun k => do distinctKey (← r.anyKey (s.part k))
        let (value, own) ← (sources source).foldlM (fun (value, own) n => do
          if !isMapping n then throw .badValue
          let (value, own') ← mapping r fuel (← (s.part n).enter) (some own) value
          return (value, own'.getD own)) (st.value, own)
        return (value, st.taken.map fun _ => own)
    | _ => throw .badValue

end Reader

/-- Reads a mapping with texts as keys on top of a value. -/
def fields {σ : Type} (fuel : Nat) (anyKey : Site → Decode Data) (once : List Text)
    (entry : σ → Text → Site → Decode σ) (s : Site) (value : σ) : Decode σ := do
  return (← (⟨text, .text, entry, once, anyKey⟩ : Reader Text σ).mapping fuel s none value).1

/-- All keys are texts or ask for other mappings. -/
def isPlain (keys : List Yaml.Node) : Bool := keys.all fun k => k.kind == .str || k.kind == .merge

/-- A value of any kind, looking at most `fuel` levels deep. -/
def any : Nat → Site → Decode Data
  | 0, _ => throw .badValue
  | fuel + 1, s => do
    let s ← s.enter
    match s.node with
    | .scalar tag style t => return (← scalar tag style t).2
    | .sequence _ items => return .list (← items.mapM fun n => any fuel (s.part n))
    | .mapping _ keys _ =>
      if isPlain keys then
        let es ← fields fuel (any fuel) [] (fun (es : List (Text × Data)) key v => do
          return setEntry (· == ·) key (← any fuel v) es) s []
        return .map true (es.map fun e => .text e.1) (es.map (·.2))
      else
        let reader : Reader Data (List (Data × Data)) :=
          { key := fun k => do return some (← any fuel k)
            asData := id
            entry := fun es key v => do
              if key.isCollection then throw .badValue
              return setEntry Data.sameKey key (← any fuel v) es
            once := []
            anyKey := any fuel }
        let (es, _) ← reader.mapping fuel s none []
        return .map false (es.map (·.1)) (es.map (·.2))
    | .alias .. => throw .badValue

/-- Options: a mapping of texts to values of any kind. -/
def options (fuel : Nat) (current : Option (List (Text × Data))) (s : Site) :
    Decode (Option (List (Text × Data))) := do
  let s ← s.enter
  match s.node with
  | .scalar tag style t =>
    match ← scalar tag style t with
    | (_, .null) => return none
    | _ =>
      mismatch
      return current
  | .mapping .. =>
    let es ← fields fuel (any fuel) [] (fun es key v => do
      return setEntry (· == ·) key (← any fuel v) es) s (current.getD [])
    return some es
  | _ =>
    mismatch
    return current

/-- The configuration of a rule, and whether something is written for it. With `strict`, unknown
fields are of the wrong kind. -/
def rule (strict : Bool) (fuel : Nat) (s : Site) (current : RuleConfig) :
    Decode (RuleConfig × Bool) := do
  let s ← s.enter
  match s.node with
  | .scalar tag style t =>
    match ← scalar tag style t with
    | (_, .null) => return (current, false)
    | _ =>
      mismatch
      return (current, false)
  | .mapping .. =>
    let c ← fields fuel (any fuel) ["severity", "data"] (fun (c : RuleConfig) key v => do
      if key == utf8 "severity" then return { c with severity := ← severity c.severity v }
      else if key == utf8 "data" then return { c with data := ← options fuel c.data v }
      else
        if strict then mismatch
        return c) s current
    return (c, true)
  | _ =>
    mismatch
    return (current, false)

/-- A list of texts; items without a text are left out. -/
def texts (current : List Text) (s : Site) : Decode (List Text) := do
  let s ← s.enter
  match s.node with
  | .scalar tag style t =>
    match ← scalar tag style t with
    | (_, .null) => return []
    | _ =>
      mismatch
      return current
  | .sequence _ items => return (← items.mapM fun n => text (s.part n)).filterMap id
  | _ =>
    mismatch
    return current

/-- Rules on top of the current ones. A rule that is named without anything written for it stays as
it is, or becomes the empty one. -/
def rules (fuel : Nat) (current : Option (List (Text × RuleConfig))) (s : Site) :
    Decode (Option (List (Text × RuleConfig))) := do
  let s ← s.enter
  match s.node with
  | .scalar tag style t =>
    match ← scalar tag style t with
    | (_, .null) => return none
    | _ =>
      mismatch
      return current
  | .mapping .. =>
    let es ← fields fuel (any fuel) [] (fun (es : List (Text × RuleConfig)) key v => do
      let (c, written) ← rule true fuel v .empty
      if written || !(es.any fun e => e.1 == key) then return setEntry (· == ·) key c es
      else return es) s (current.getD [])
    return some es
  | _ =>
    mismatch
    return current

/-- A configuration on top of another one. -/
def config (fuel : Nat) (s : Site) (c : Config) : Decode Config := do
  let s ← s.enter
  match s.node with
  | .scalar tag style t =>
    match ← scalar tag style t with
    | (_, .null) => return c
    | _ =>
      mismatch
      return c
  | .mapping .. =>
    fields fuel (any fuel) ["name", "tests", "ignore-paths", "rules"] (fun (c : Config) key v => do
      if key == utf8 "name" then return { c with name := (← text v).getD c.name }
      else if key == utf8 "tests" then return { c with tests := (← bool v).getD c.tests }
      else if key == utf8 "ignore-paths" then return { c with ignorePaths := ← texts c.ignorePaths v }
      else if key == utf8 "rules" then return { c with rules := ← rules fuel c.rules v }
      else
        mismatch
        return c) s c
  | _ =>
    mismatch
    return c

/-- Reads the root of a document, if there is one. -/
def document {α : Type} (f : Nat → Site → α → Decode α) (t : Text) (start : α) : Except ConfigFault α :=
  match Yaml.parse t with
  | .error e => .error (.document e)
  | .ok none => .ok start
  | .ok (some root) => do
    let (a, s) ← (f (t.length + 2) ⟨root, false⟩ start).run ⟨false, 1, 0⟩
    if s.mismatched then throw .mismatch
    return a

end Decode

namespace ConfigFault

/-- The message of a fault, where it is the program's own. -/
def message? : ConfigFault → Option Text
  | .severity e => some e.message
  | _ => none

end ConfigFault

namespace RuleConfig

/-- Reads the configuration of a rule; unknown fields do not matter. -/
def parse (t : Text) : Except ConfigFault RuleConfig :=
  Decode.document (fun fuel s c => do return (← Decode.rule false fuel s c).1) t .empty

end RuleConfig

end CaseCover
