import CaseCover.Typing.Check

/-!
# The names of a package

Before anything is checked, the names that the files of a package declare are collected, with the
methods and the types they belong to, the names that imports bring into each file, and the release of
the language that each file is written in.
-/

namespace CaseCover.Check

/-! ## Declarations -/

/-- The constants of a group, with types and values repeated where they are left out. -/
def constObjects (file : Nat) : Nat → Expr → List Expr → List Spec → Check (List PackageObject)
  | _, _, _, [] => return []
  | iota, type, values, .values names t vs :: rest => do
    let (type, values) := if t.isAbsent && vs.isEmpty then (type, values) else (t, vs)
    let pos := (names.head?.map (·.pos)).getD 0
    require (names.length == values.length) (.badCount pos)
    let here := (names.zip values).map fun (id, e) =>
      (⟨id, file, id.name != blank, .const type e iota⟩ : PackageObject)
    return here ++ (← constObjects file (iota + 1) type values rest)
  | iota, type, values, _ :: rest => constObjects file (iota + 1) type values rest

/-- The variables of one line; `first` is the number of the first one. -/
def varObjects (file first : Nat) (names : List Ident) (type : Expr) (values : List Expr) :
    Check (List PackageObject) := do
  let pos := (names.head?.map (·.pos)).getD 0
  let n := names.length
  require (values.isEmpty || values.length == n || values.length == 1) (.badCount pos)
  require (!(values.isEmpty && type.isAbsent)) (.badDecl pos)
  return names.zipIdx.map fun (id, i) =>
    ⟨id, file, id.name != blank, .var type values i n first⟩

/-- The functions that start a program or a package take and give nothing. -/
def specialFunction (package : Text) (f : FuncDecl) : Check Unit := do
  let isInit := f.name.name == utf8 "init"
  if isInit || (f.name.name == utf8 "main" && package == utf8 "main") then
    require (f.typeParams.isEmpty && f.params.isEmpty && !f.hasResults) (.badDecl f.name.pos)
    require (!isInit || !f.body.isAbsent) (.badDecl f.name.pos)

/-- The names that a declaration adds to those of the package so far. -/
def declObjects (package : Text) (file count : Nat) : Decl → Check (List PackageObject)
  | .group _ .consts specs _ => constObjects file 0 .absent [] specs
  | .group _ .vars specs _ => specs.foldlM (fun acc spec => do
    match spec with
    | .values names type values =>
      return acc ++ (← varObjects file (count + acc.length) names type values)
    | _ => return acc) []
  | .group _ .types specs _ => return specs.filterMap fun spec =>
    match spec with
    | .type id params isAlias type => some ⟨id, file, id.name != blank, .type params isAlias type⟩
    | _ => none
  | .group _ .imports _ _ => return []
  | .func f => do
    match f.receiver with
    | some _ => return []
    | none =>
      specialFunction package f
      let visible := f.name.name != blank && f.name.name != utf8 "init"
      return [⟨f.name, file, visible, .func f⟩]

/-! ## Methods -/

/-- The type of a receiver without pointers and parentheses, and whether there were pointers. -/
def receiverCore : Expr → Bool × Expr
  | .star _ x => (true, (receiverCore x).2)
  | .paren _ x _ => receiverCore x
  | e => (false, e)

/-- The name of the type of a receiver and the type arguments that follow it. -/
def receiverParts (e : Expr) : Option Ident × List Expr :=
  match (receiverCore e).2 with
  | .ident id => (some id, [])
  | .index (.ident id) args _ => (some id, args)
  | .index _ args _ => (none, args)
  | _ => (none, [])

/-- The declared type that a type expression names, following at most so many other names for it, and
whether a pointer was met on the way. There is at most one pointer. -/
def baseFrom (objects : List PackageObject) : Nat → Bool → Expr → Option (Nat × Bool)
  | 0, _, _ => none
  | n + 1, pointer, e => do
    let (pointer, e) ← match e.unparen with
      | .star _ x => if pointer then none else some (true, x.unparen)
      | e => some (pointer, e)
    match e with
    | .ident id =>
      let i ← objects.findIdx? fun o => o.visible && o.id.name == id.name
      match (← objects[i]?).decl with
      | .type _ isAlias type => if isAlias then baseFrom objects n pointer type else some (i, pointer)
      | _ => none
    | _ => none

/-- The declared type that a method belongs to, and whether its receiver is a pointer. A method with
a blank name belongs to none. -/
def methodBase? (objects : List PackageObject) (f : FuncDecl) (receiver : Expr) : Option (Nat × Bool) := do
  let id ← (receiverParts receiver).1
  if f.name.name == blank then none
  else baseFrom objects (objects.length + 1) (receiverCore receiver).1 (.ident id)

/-- The methods declared in a file. -/
def fileMethods (objects : List PackageObject) (file : Nat) (f : SourceFile) :
    Check (List MethodSource) :=
  f.decls.filterMapM fun d => do
    match d with
    | .func fd =>
      match fd.receiver with
      | some [.field names type _] =>
        require (names.length ≤ 1) (.badDecl fd.pos)
        let base := methodBase? objects fd type
        return some ⟨base.map (·.1), (base.map (·.2)).getD false, file, fd⟩
      | some _ => throw (.badDecl fd.pos)
      | none => return none
    | _ => return none

/-! ## Imports -/

/-- The names that an import brings into a file. -/
def importNames (packages : List Package) (name : Option Ident) (path : Text) :
    Check (List Imported) := do
  let path ← match Const.stringLiteral path with
    | some p => pure p
    | none => throw (.badImport path)
  let package ←
    if path == utf8 "unsafe" then pure rawMemory
    else
      match packages.find? fun p => p.path == path with
      | some p => pure p
      | none => throw (.badImport path)
  let bound := (name.map (·.name)).getD package.name
  if bound == blank then return []
  require (bound != utf8 "init") (.badImport path)
  let serial ← fresh
  modify fun s => { s with pending := (bound, serial) :: s.pending }
  if bound == utf8 "." then
    return package.scope.filterMap fun d =>
      if Text.isExported d.name then some ⟨d.name, serial, d.entity⟩ else none
  return [⟨bound, serial, .package path serial⟩]

/-- The names that the imports of a file bring into it. -/
def fileImports (packages : List Package) (f : SourceFile) : Check (List Imported) := do
  let specs := f.decls.flatMap fun d =>
    match d with
    | .group _ .imports specs _ => specs
    | _ => []
  let names ← specs.mapM fun s => do
    match s with
    | .importing name _ path => importNames packages name path
    | _ => return []
  distinct (names.flatten.map fun i => ⟨0, i.name⟩)
  return names.flatten

/-! ## Releases -/

/-- The release that is known. -/
def latestRelease : Constraint.Release := 22

/-- From this release on a file may ask for an earlier release than its module. -/
def downgradesSince : Constraint.Release := 21

/-- The release that a file of a module is written in: its own, if it asks for one. -/
def fileRelease (module : Option Constraint.Release) (f : SourceFile) :
    Option Constraint.Release :=
  match module, f.leastRelease? with
  | some m, some v => if v < m && m < downgradesSince then m else v
  | m, _ => m

/-! ## All together -/

/-- The declaration is that of a function. -/
def PackageObject.isFunction (o : PackageObject) : Bool :=
  match o.decl with
  | .func _ => true
  | _ => false

/-- What is fixed about a package: everything that its files declare and import. -/
def home (path : Text) (release : Option Constraint.Release) (packages : List Package)
    (files : List SourceFile) : Check Home := do
  let name := (files.head?.map (·.name.name)).getD []
  for f in files do
    require (f.name.name != blank && f.name.name == name) (.packageName f.name.name)
    require ((f.leastRelease?.getD 0) ≤ latestRelease) (.release f.package)
  let imports ← files.mapM (fileImports packages)
  let objects ← files.zipIdx.foldlM (fun (acc : List PackageObject) (f, i) =>
    f.decls.foldlM (fun acc d => do return acc ++ (← declObjects name i acc.length d)) acc) []
  let methods ← files.zipIdx.mapM fun (f, i) => fileMethods objects i f
  let visible := objects.filter (·.visible)
  distinct (visible.map (·.id))
  for o in visible do
    require (PackageObject.isFunction o ||
        (o.id.name != utf8 "init" && !(o.id.name == utf8 "main" && name == utf8 "main")))
      (.badDecl o.id.pos)
    require (!imports.any fun names => names.any fun i => i.name == o.id.name) (.redeclared o.id)
  return ⟨path, name, objects, methods.flatten, imports, files.map (fileRelease release), packages⟩

end CaseCover.Check
