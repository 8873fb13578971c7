import CaseCover.Source.LineDirective
import CaseCover.Source.Parse.Stmt

/-!
# Source files

The grammar as a whole: the recursive rules with a bound on their depth, the declarations of a
file, and the readers of a whole file, of the statements of a function body and of a single
expression.

The bound counts nested rules. Between two tokens at most a handful of rules can be entered, so a
bound of eight per token is never reached.
-/

namespace CaseCover

namespace Parse

/-- The rules with at most the given depth. -/
def rules : Nat → Rules
  | 0 =>
    ⟨throw .tooDeep, fun _ _ => throw .tooDeep, throw .tooDeep, fun _ => throw .tooDeep,
     throw .tooDeep⟩
  | n + 1 =>
    let r := rules n
    ⟨typeRule r, binaryRule r, unaryRule r, literalValueRule r, stmtRule r⟩

/-- A function declaration. -/
def funcDecl (r : Rules) : Parse Decl := do
  let start ← expectKeyword .kwFunc
  let receiver ← if ← atOp .lparen then do pure (some (← params r).1) else pure none
  let name ← ident
  let tps ←
    if ← atOp .lbrack then do
      if receiver.isSome then unexpected
      typeParams r
    else pure []
  let (ps, stop) ← params r
  let hasList ← atOp .lparen
  let (rs, stop) ← results r stop
  let body ←
    if ← atOp .lbrace then do
      let b ← block r
      endStatement
      pure b
    else do
      endStatement
      if ← atOp .lbrace then unexpected
      pure .absent
  return .func ⟨start, receiver, name, tps, ps, rs, hasList || !rs.isEmpty, stop, body⟩

/-- A declaration at the top of a file. Imports must come before all others. -/
def topDecl (r : Rules) (importsAllowed : Bool) : Parse (Decl × Bool) := do
  match ← groupDecl r with
  | some (start, kind, specs, close) => return (.group start kind specs close, false)
  | none =>
    if ← atKeyword .kwFunc then return (← funcDecl r, false)
    if (← atKeyword .kwImport) && importsAllowed then
      let (start, kind, specs, close) ← group .kwImport .imports importSpec
      return (.group start kind specs close, true)
    unexpected

/-- The package clause and the declarations of a file. -/
def file (r : Rules) (comments : List Comment) : Parse SourceFile := do
  let start ← expectKeyword .kwPackage
  let name ← ident
  endStatement
  let (decls, _) ← repeated (([] : List Decl), true) fun (acc, importsAllowed) => do
    if ← atEnd then return .done (acc, importsAllowed)
    let (d, wasImport) ← topDecl r importsAllowed
    return .more (d :: acc, importsAllowed && wasImport)
  return ⟨start, name, decls.reverse, comments⟩

/-- The start of a file: the name of its package if there is one, the paths that it imports, and
whether everything is sound. -/
structure Header where
  name : Option Text
  imports : List Text
  sound : Bool

/-- The package clause, and the imports as far as they are sound. -/
def header : Parse Header := do
  let _ ← expectKeyword .kwPackage
  let name ← ident
  try
    endStatement
    let groups ← many (atKeyword .kwImport) (group .kwImport .imports importSpec)
    let paths := groups.flatMap fun (_, _, specs, _) => specs.filterMap fun s =>
      match s with
      | .importing _ _ path => Const.stringLiteral path
      | _ => none
    return ⟨some name.name, paths, name.name != utf8 "_"⟩
  catch _ => return ⟨some name.name, [], false⟩

/-- The package clause of a file and its declarations up to the first that cannot be read. -/
def leadingFile (r : Rules) (comments : List Comment) : Parse SourceFile := do
  let start ← expectKeyword .kwPackage
  let name ← ident
  try endStatement catch _ => pure ()
  let (decls, _) ← repeated (([] : List Decl), true) fun (acc, importsAllowed) => do
    if ← atEnd then return .done (acc, importsAllowed)
    try
      let (d, wasImport) ← topDecl r importsAllowed
      return .more (d :: acc, importsAllowed && wasImport)
    catch _ => return .done (acc, importsAllowed)
  return ⟨start, name, decls.reverse, comments⟩

/-- An expression and nothing after it but a line break. -/
def soleExpr (r : Rules) : Parse Expr := do
  let x ← expr r
  let t ← peek
  if t.kind == .op .semicolon && t.text == [0x0A] then advance
  if ← atEnd then pure x else unexpected

/-- Runs a reader on tokens. -/
def run {α : Type} (p : Rules → Parse α) (tokens : List Token) : Except SourceFault α :=
  let bound := 8 * tokens.length + 16
  (p (rules bound)).run' ⟨tokens, tokens.length, 0⟩

end Parse

/-- The text of a comment: carriage returns do not belong to it. -/
def RawComment.comment (c : RawComment) (base : Pos) : Comment :=
  ⟨base + c.offset, c.text.filter (· ≠ 0x0D)⟩

/-- Reads a source file and adds it to a set of files. -/
def SourceFile.parse (files : FileSet) (name text : Text) :
    Except SourceFault (SourceFile × FileSet) := do
  let base := files.nextBase
  match Token.read base text with
  | .error fault => throw (.lexical fault)
  | .ok (tokens, comments) =>
    let plain : FileMap := ⟨name, base, text.length, 0 :: FileMap.lineStartsFrom 0 text, []⟩
    match LineDirective.collect plain comments with
    | .error fault => throw (.lexical fault)
    | .ok map =>
      let f ← Parse.run (fun r => Parse.file r (comments.map (·.comment base))) tokens
      return (f, ⟨files.files ++ [map]⟩)

/-- Reads the start of a source file. -/
def SourceFile.header (text : Text) : Parse.Header :=
  let l := Token.scan 1 text
  match Parse.header.run' ⟨l.tokens, l.tokens.length, 0⟩ with
  | .ok h => h
  | .error _ => ⟨none, [], false⟩

/-- Reads a source file as far as it can be read and adds it to a set of files. -/
def SourceFile.parseLeading (files : FileSet) (name text : Text) : Option SourceFile × FileSet :=
  let base := files.nextBase
  let l := Token.scan base text
  let map : FileMap := ⟨name, base, text.length, 0 :: FileMap.lineStartsFrom 0 text, []⟩
  let comments := l.comments.map (·.comment base)
  ((Parse.run (fun r => Parse.leadingFile r comments) l.tokens).toOption, ⟨files.files ++ [map]⟩)

/-- Reads a single expression. -/
def Expr.parse (text : Text) : Except SourceFault Expr := do
  match Token.read 1 text with
  | .error fault => throw (.lexical fault)
  | .ok (tokens, _) => Parse.run Parse.soleExpr tokens

/-- The first statement of the function that a file starts with. -/
def SourceFile.firstStmt? (f : SourceFile) : Option Stmt :=
  match f.decls with
  | .func fd :: _ => (fd.body.blockBody?.getD []).head?
  | _ => none

/-- Reads the text of a function body and gives its first statement. -/
def Stmt.parseFirst (text : Text) : Except SourceFault (Option Stmt) := do
  let wrapped := utf8 "package x\nfunc f() \x7b\n" ++ text ++ utf8 "\n\x7d\n"
  let (f, _) ← SourceFile.parse FileSet.empty "x.go" wrapped
  return f.firstStmt?

end CaseCover
