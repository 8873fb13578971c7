import CaseCover.Path

/-!
# File trees

Directories with their entries in the order of their names, files with their content, and symbolic
links. A path is walked component by component from the root or from the current directory; a
link on the way is replaced by its target, up to forty times. Every operation says what is wrong
with a path in the words of the operating system.
-/

namespace CaseCover

/-- A file, a link or a directory with its entries. -/
inductive FileNode where
  | file (content : Text)
  | link (target : Text)
  | dir (entries : List (Text × FileNode))
deriving Inhabited

/-- Why the operating system refuses a path. -/
inductive FileError where
  | notFound
  | notDirectory
  | isDirectory
  | tooManyLinks
  | nameTooLong
  | invalid
deriving DecidableEq

/-- The words for a refusal. -/
def FileError.text : FileError → Text
  | .notFound => "no such file or directory"
  | .notDirectory => "not a directory"
  | .isDirectory => "is a directory"
  | .tooManyLinks => "too many levels of symbolic links"
  | .nameTooLong => "file name too long"
  | .invalid => "invalid argument"

/-- An operation on a path that was refused. -/
structure PathError where
  operation : Text
  path : Text
  cause : FileError
deriving DecidableEq

/-- The message of a refused operation. -/
def PathError.message (e : PathError) : Text :=
  e.operation ++ utf8 " " ++ e.path ++ utf8 ": " ++ e.cause.text

namespace FileNode

/-- The entries of a directory; nothing else has any. -/
def entries : FileNode → List (Text × FileNode)
  | .dir es => es
  | _ => []

/-- A directory. -/
def isDir : FileNode → Bool
  | .dir _ => true
  | _ => false

/-- The entry with a name. -/
def child? (n : FileNode) (name : Text) : Option FileNode := n.entries.lookup name

/-- What lies below a node at a path without links. -/
def below? (n : FileNode) : List Text → Option FileNode
  | [] => some n
  | name :: rest => (n.child? name).bind fun c => c.below? rest

/-- Entries with one more, in place of the one of the same name if there is one. -/
def insertEntry (name : Text) (n : FileNode) : List (Text × FileNode) → List (Text × FileNode)
  | [] => [(name, n)]
  | (k, m) :: rest =>
    if name == k then (k, n) :: rest
    else if Text.less name k then (name, n) :: (k, m) :: rest
    else (k, m) :: insertEntry name n rest

/-- The directory with an entry changed: `f` makes the new entry out of the old one, or takes it
away. -/
def update (n : FileNode) (name : Text) (f : Option FileNode → Option FileNode) : FileNode :=
  match f (n.child? name) with
  | some c => .dir (insertEntry name c n.entries)
  | none => .dir (n.entries.filter fun e => e.1 != name)

/-- Changes what lies at a path without links; directories on the way are made where they are
missing. -/
def alter (f : Option FileNode → Option FileNode) : List Text → FileNode → FileNode
  | [], n => (f (some n)).getD (.dir [])
  | [name], n => n.update name f
  | name :: rest, n => n.update name fun c => some (alter f rest (c.getD (.dir [])))

end FileNode

/-- A file tree with a current directory. -/
structure FileTree where
  root : FileNode
  cwd : Text

namespace FileTree

/-- The components of a path that is walked: a separator at its end asks for a directory. -/
def steps (p : Text) : List Text :=
  let cs := (Path.components p).filter fun c => !c.isEmpty
  if p.getLast? == some Path.separator then cs ++ [utf8 "."] else cs

/-- The end of a walk up to the next link: the place, last component first, and what is there; or a
link with what is left to walk after it. -/
inductive Reached where
  | node (place : List Text) (n : FileNode)
  | link (place : List Text) (target : Text) (rest : List Text)

/-- Walks up to the next link. A link at the end is only followed if `follow` says so. -/
def descend (root : FileNode) (follow : Bool) : List Text → List Text → Except FileError Reached
  | place, [] =>
    match root.below? place.reverse with
    | some n => .ok (.node place n)
    | none => .error .notFound
  | place, c :: rest =>
    match root.below? place.reverse with
    | some (.dir es) =>
      if 255 < c.length then .error .nameTooLong
      else if c.contains 0 then .error .invalid
      else if c == utf8 "." then descend root follow place rest
      else if c == utf8 ".." then descend root follow (place.drop 1) rest
      else
        match es.lookup c with
        | none => .error .notFound
        | some (.link target) =>
          if rest.isEmpty && !follow then .ok (.node (c :: place) (.link target))
          else .ok (.link place target rest)
        | some _ => descend root follow (c :: place) rest
    | some _ => .error .notDirectory
    | none => .error .notFound

/-- Walks a path, passing over at most so many links. -/
def walkFrom (root : FileNode) (follow : Bool) : Nat → List Text → List Text →
    Except FileError (List Text × FileNode)
  | 0, _, _ => .error .tooManyLinks
  | links + 1, place, todo => do
    match ← descend root follow place todo with
    | .node place n => return (place, n)
    | .link place target rest =>
      walkFrom root follow links (if Path.isAbs target then [] else place) (steps target ++ rest)

/-- Where a path leads: the place without links, last component first, and what is there. -/
def find (t : FileTree) (follow : Bool) (p : Text) : Except FileError (List Text × FileNode) :=
  if p.isEmpty then .error .notFound
  else if Path.isAbs p then walkFrom t.root follow 41 [] (steps p)
  else walkFrom t.root follow 41 (steps t.cwd).reverse (steps p)

/-- What lies at a path, links followed. -/
def stat (t : FileTree) (p : Text) : Except PathError FileNode :=
  match t.find true p with
  | .ok (_, n) => .ok n
  | .error e => .error ⟨"stat", p, e⟩

/-- What lies at a path; a link at its end is not followed. -/
def lstat (t : FileTree) (p : Text) : Except PathError FileNode :=
  match t.find false p with
  | .ok (_, n) => .ok n
  | .error e => .error ⟨"lstat", p, e⟩

/-- Opens what lies at a path. -/
def openNode (t : FileTree) (p : Text) : Except PathError FileNode :=
  match t.find true p with
  | .ok (_, n) => .ok n
  | .error e => .error ⟨"open", p, e⟩

/-- The content of a file. -/
def content (t : FileTree) (p : Text) : Except PathError Text := do
  match ← t.openNode p with
  | .file c => return c
  | _ => throw ⟨"read", p, .isDirectory⟩

/-- The names in a directory, in order. -/
def names (n : FileNode) : List Text := n.entries.map (·.1)

/-- The place at which a file would be written, last component first. -/
def writePlace (root : FileNode) : Nat → List Text → List Text → Except FileError (List Text)
  | 0, _, _ => .error .tooManyLinks
  | links + 1, place, todo => do
    match todo.getLast? with
    | none => throw .isDirectory
    | some name =>
      if name == utf8 "." || name == utf8 ".." then throw .isDirectory
      let (place, n) ← walkFrom root true 41 place todo.dropLast
      if !n.isDir then throw .notDirectory
      if 255 < name.length then throw .nameTooLong
      if name.contains 0 then throw .invalid
      match n.child? name with
      | some (.dir _) => throw .isDirectory
      | some (.link target) =>
        writePlace root links (if Path.isAbs target then [] else place) (steps target)
      | _ => return name :: place

/-- The tree with a file written: a new one, or an old one with new content. -/
def writeFile (t : FileTree) (p content : Text) : Except PathError FileTree :=
  let start := if Path.isAbs p then [] else (steps t.cwd).reverse
  let found := if p.isEmpty then .error .notFound else writePlace t.root 41 start (steps p)
  match found with
  | .ok place => .ok { t with root := t.root.alter (fun _ => some (.file content)) place.reverse }
  | .error e => .error ⟨"open", p, e⟩

/-! ## Edits

These put things at a path by its text alone, without regard to links. -/

/-- The components of a path from the root on. -/
def placeOf (t : FileTree) (p : Text) : List Text := Path.cleanComponents (Path.absolute t.cwd p)

/-- Puts something at a path, with the directories above it. -/
def put (t : FileTree) (p : Text) (n : FileNode) : FileTree :=
  { t with root := t.root.alter (fun _ => some n) (t.placeOf p) }

/-- Makes a directory with those above it; one that is there stays. -/
def makeDir (t : FileTree) (p : Text) : FileTree :=
  { t with root := t.root.alter (fun n => some (n.getD (.dir []))) (t.placeOf p) }

/-- Takes away what lies at a path. -/
def remove (t : FileTree) (p : Text) : FileTree :=
  if (t.root.below? (t.placeOf p)).isSome then
    { t with root := t.root.alter (fun _ => none) (t.placeOf p) }
  else t

/-- Moves what lies at a path to another one. -/
def rename (t : FileTree) (p q : Text) : FileTree :=
  match t.root.below? (t.placeOf p) with
  | some n => (t.remove p).put q n
  | none => t

/-- An empty tree with a current directory. -/
def empty (cwd : Text) : FileTree := (FileTree.mk (.dir []) cwd).makeDir cwd

/-! ## All files -/

mutual

/-- The files below a node with their paths, which start with `lead`. -/
def filesBelow (lead : Text) : FileNode → List (Text × Text)
  | .file content => [(lead, content)]
  | .link _ => []
  | .dir entries => filesOf lead entries

/-- The files among the entries of a directory. -/
def filesOf (lead : Text) : List (Text × FileNode) → List (Text × Text)
  | [] => []
  | (name, n) :: rest =>
    filesBelow (if lead.isEmpty then name else lead ++ [Path.separator] ++ name) n ++
      filesOf lead rest

end

/-- The files below the current directory with their relative paths. -/
def files (t : FileTree) : List (Text × Text) :=
  match t.root.below? (t.placeOf t.cwd) with
  | some n => filesBelow [] n
  | none => []

/-! ## Paths without links -/

/-- A path without links for the same place: relative paths stay relative. `done` has its
components, last first. -/
def resolveFrom (t : FileTree) : Nat → Bool → List Text → List Text → Option (Bool × List Text)
  | 0, _, _, _ => none
  | _ + 1, rooted, done, [] => some (rooted, done)
  | fuel + 1, rooted, done, c :: rest =>
    if c.isEmpty || c == utf8 "." then resolveFrom t fuel rooted done rest
    else if c == utf8 ".." then resolveFrom t fuel rooted (Path.push rooted done c) rest
    else
      let text := fun (cs : List Text) =>
        (if rooted then [Path.separator] else []) ++ Text.join [Path.separator] cs.reverse
      match t.lstat (text (c :: done)) with
      | .error _ => none
      | .ok (.link target) =>
        if Path.isAbs target then resolveFrom t fuel true [] (Path.components target ++ rest)
        else resolveFrom t fuel rooted done (Path.components target ++ rest)
      | .ok (.file _) => if rest.isEmpty then some (rooted, c :: done) else none
      | .ok (.dir _) => resolveFrom t fuel rooted (c :: done) rest

/-- The path without links, if it leads somewhere. -/
def resolve (t : FileTree) (p : Text) : Option Text :=
  (resolveFrom t (4096 + p.length) (Path.isAbs p) [] (Path.components p)).map fun (rooted, done) =>
    Path.clean ((if rooted then [Path.separator] else []) ++ Text.join [Path.separator] done.reverse)

end FileTree

end CaseCover
