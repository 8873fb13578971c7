import CaseCover.Const.Literal
import CaseCover.Source.Operator

/-!
# Syntax trees

Expressions, statements and declarations of a source file, each with the positions that later
stages ask for. A position is a number that grows along the files of one analysis; 0 is no
position at all.

Trees can also be built by hand, so parts that a file always has may be missing here: `absent`
stands for an expression or statement that is not there, and `bareIf` and `bareSwitch` stand for an
if or switch statement of which only the kind is known.
-/

namespace CaseCover

/-- A position in a set of files; 0 is no position. -/
abbrev Pos := Nat

/-- A name and where it stands. -/
structure Ident where
  pos : Pos
  name : Text
deriving DecidableEq

/-- Directions of a channel type. -/
inductive ChanDir where
  | both | send | receive
deriving DecidableEq

/-- The statements that transfer control. -/
inductive BranchKind where
  | brk | cont | goto | fall
deriving DecidableEq

/-- The kinds of grouped declarations. -/
inductive DeclKind where
  | imports | consts | types | vars
deriving DecidableEq

mutual

/-- Expressions, type expressions and the fields inside them. -/
inductive Expr where
  | absent
  | bad (start stop : Pos)
  | ident (id : Ident)
  | literal (pos : Pos) (kind : Const.LiteralKind) (text : Text)
  | paren (start : Pos) (inner : Expr) (close : Pos)
  | selector (x : Expr) (sel : Ident)
  | index (x : Expr) (args : List Expr) (close : Pos)
  | slice (x low high max : Expr) (full : Bool) (close : Pos)
  | assertion (x type : Expr) (close : Pos)
  | call (fn : Expr) (args : List Expr) (ellipsis close : Pos)
  | star (pos : Pos) (x : Expr)
  | unary (pos : Pos) (op : Op) (x : Expr)
  | binary (x : Expr) (op : Op) (y : Expr)
  | pair (key value : Expr)
  | composite (type : Expr) (start : Pos) (elements : List Expr) (close : Pos)
  | function (type : Expr) (body : Stmt)
  | ellipsis (pos : Pos) (element : Expr)
  | arrayType (pos : Pos) (length element : Expr)
  | structType (pos : Pos) (fields : List Expr) (close : Pos)
  | funcType (pos : Pos) (typeParams params results : List Expr) (stop : Pos)
  | interfaceType (pos : Pos) (members : List Expr) (close : Pos)
  | mapType (pos : Pos) (key value : Expr)
  | chanType (pos : Pos) (dir : ChanDir) (value : Expr)
  | field (names : List Ident) (type : Expr) (tag : Text)

/-- Statements and the clauses inside them. -/
inductive Stmt where
  | absent
  | decl (pos : Pos) (kind : DeclKind) (specs : List Spec) (close : Pos)
  | empty (pos : Pos) (implicit : Bool)
  | labeled (label : Ident) (body : Stmt)
  | expr (x : Expr)
  | send (chan value : Expr)
  | incDec (x : Expr) (pos : Pos) (op : Op)
  | assign (lhs : List Expr) (op : Op) (rhs : List Expr)
  | spawn (pos : Pos) (call : Expr)
  | postpone (pos : Pos) (call : Expr)
  | giveBack (pos : Pos) (results : List Expr)
  | branch (pos : Pos) (kind : BranchKind) (stop : Pos) (label : Option Ident)
  | block (start : Pos) (body : List Stmt) (close : Pos)
  | ifChain (pos : Pos) (init : Stmt) (cond : Expr) (body other : Stmt)
  | caseClause (pos : Pos) (isDefault : Bool) (exprs : List Expr) (colon : Pos) (body : List Stmt)
  | switchOn (pos : Pos) (init : Stmt) (tag : Expr) (body : Stmt)
  | typeSwitch (pos : Pos) (init guard body : Stmt)
  | commClause (pos : Pos) (isDefault : Bool) (comm : Stmt) (colon : Pos) (body : List Stmt)
  | selectOn (pos : Pos) (body : Stmt)
  | loop (pos : Pos) (init : Stmt) (cond : Expr) (post body : Stmt)
  | iterate (pos : Pos) (key value : Expr) (op : Option Op) (subject : Expr) (body : Stmt)
  | bareIf
  | bareSwitch

/-- The entries of a grouped declaration. -/
inductive Spec where
  | importing (name : Option Ident) (pos : Pos) (path : Text)
  | values (names : List Ident) (type : Expr) (values : List Expr)
  | type (name : Ident) (params : List Expr) (isAlias : Bool) (type : Expr)

end

instance : Inhabited Expr := ⟨.absent⟩
instance : Inhabited Stmt := ⟨.absent⟩

/-- A comment with its marks. -/
structure Comment where
  pos : Pos
  text : Text
deriving DecidableEq

/-- A function or method declaration. The list of results may be there and empty. -/
structure FuncDecl where
  pos : Pos
  receiver : Option (List Expr)
  name : Ident
  typeParams : List Expr
  params : List Expr
  results : List Expr
  hasResults : Bool
  signatureStop : Pos
  body : Stmt

/-- A top-level declaration. -/
inductive Decl where
  | group (pos : Pos) (kind : DeclKind) (specs : List Spec) (close : Pos)
  | func (f : FuncDecl)

/-- A source file: where its package clause stands, the package name, the declarations and all
comments in source order. -/
structure SourceFile where
  package : Pos
  name : Ident
  decls : List Decl
  comments : List Comment

/-! ## Extent -/

/-- Where an identifier ends. -/
def Ident.stop (id : Ident) : Pos := id.pos + id.name.length

mutual

/-- Where an expression starts. -/
def Expr.pos : Expr → Pos
  | .absent => 0
  | .bad start _ => start
  | .ident id => id.pos
  | .literal pos _ _ => pos
  | .paren start _ _ => start
  | .selector x _ => x.pos
  | .index x _ _ => x.pos
  | .slice x _ _ _ _ _ => x.pos
  | .assertion x _ _ => x.pos
  | .call fn _ _ _ => fn.pos
  | .star pos _ => pos
  | .unary pos _ _ => pos
  | .binary x _ _ => x.pos
  | .pair key _ => key.pos
  | .composite .absent start _ _ => start
  | .composite type _ _ _ => type.pos
  | .function type _ => type.pos
  | .ellipsis pos _ => pos
  | .arrayType pos _ _ => pos
  | .structType pos _ _ => pos
  | .funcType pos _ _ _ _ => pos
  | .interfaceType pos _ _ => pos
  | .mapType pos _ _ => pos
  | .chanType pos _ _ => pos
  | .field (id :: _) _ _ => id.pos
  | .field [] type _ => type.pos

/-- Where an expression ends: the position just after it. -/
def Expr.stop : Expr → Pos
  | .absent => 0
  | .bad _ stop => stop
  | .ident id => id.stop
  | .literal pos _ text => pos + text.length
  | .paren _ _ close => close + 1
  | .selector _ sel => sel.stop
  | .index _ _ close => close + 1
  | .slice _ _ _ _ _ close => close + 1
  | .assertion _ _ close => close + 1
  | .call _ _ _ close => close + 1
  | .star _ x => x.stop
  | .unary _ _ x => x.stop
  | .binary _ _ y => y.stop
  | .pair _ value => value.stop
  | .composite _ _ _ close => close + 1
  | .function _ body => body.stop
  | .ellipsis pos .absent => pos + 3
  | .ellipsis _ element => element.stop
  | .arrayType _ _ element => element.stop
  | .structType _ _ close => close + 1
  | .funcType _ _ _ _ stop => stop
  | .interfaceType _ _ close => close + 1
  | .mapType _ _ value => value.stop
  | .chanType _ _ value => value.stop
  | .field _ type _ => type.stop

/-- Where a statement ends: the position just after it. -/
def Stmt.stop : Stmt → Pos
  | .absent => 0
  | .decl pos _ specs close => if close ≠ 0 then close + 1 else Spec.stopOfFirst pos specs
  | .empty pos implicit => if implicit then pos else pos + 1
  | .labeled _ body => body.stop
  | .expr x => x.stop
  | .send _ value => value.stop
  | .incDec _ pos _ => pos + 2
  | .assign _ _ rhs => Expr.stopOfLast 0 rhs
  | .spawn _ call => call.stop
  | .postpone _ call => call.stop
  | .giveBack pos results => Expr.stopOfLast (pos + 6) results
  | .branch _ _ stop label =>
    match label with
    | some l => l.stop
    | none => stop
  | .block _ _ close => close + 1
  | .ifChain _ _ _ body .absent => body.stop
  | .ifChain _ _ _ _ other => other.stop
  | .caseClause _ _ _ colon body => Stmt.stopOfLast (colon + 1) body
  | .switchOn _ _ _ body => body.stop
  | .typeSwitch _ _ _ body => body.stop
  | .commClause _ _ _ colon body => Stmt.stopOfLast (colon + 1) body
  | .selectOn _ body => body.stop
  | .loop _ _ _ _ body => body.stop
  | .iterate _ _ _ _ _ body => body.stop
  | .bareIf => 0
  | .bareSwitch => 0

/-- Where the last expression of a list ends, or `dflt` for no expressions. -/
def Expr.stopOfLast (dflt : Pos) : List Expr → Pos
  | [] => dflt
  | e :: es => Expr.stopOfLast e.stop es

/-- Where the last statement of a list ends, or `dflt` for no statements. -/
def Stmt.stopOfLast (dflt : Pos) : List Stmt → Pos
  | [] => dflt
  | s :: ss => Stmt.stopOfLast s.stop ss

/-- Where the first entry of a group ends, or `dflt` for no entries. -/
def Spec.stopOfFirst (dflt : Pos) : List Spec → Pos
  | [] => dflt
  | s :: _ => s.stop

/-- Where an entry of a group ends. -/
def Spec.stop : Spec → Pos
  | .importing _ pos path => pos + path.length
  | .values names .absent [] =>
    match names.getLast? with
    | some id => id.stop
    | none => 0
  | .values _ type values => Expr.stopOfLast type.stop values
  | .type _ _ _ type => type.stop

end

/-- Where a statement starts. -/
def Stmt.pos : Stmt → Pos
  | .absent => 0
  | .decl pos _ _ _ => pos
  | .empty pos _ => pos
  | .labeled label _ => label.pos
  | .expr x => x.pos
  | .send chan _ => chan.pos
  | .incDec x _ _ => x.pos
  | .assign (x :: _) _ _ => x.pos
  | .assign [] _ _ => 0
  | .spawn pos _ => pos
  | .postpone pos _ => pos
  | .giveBack pos _ => pos
  | .branch pos _ _ _ => pos
  | .block start _ _ => start
  | .ifChain pos _ _ _ _ => pos
  | .caseClause pos _ _ _ _ => pos
  | .switchOn pos _ _ _ => pos
  | .typeSwitch pos _ _ _ => pos
  | .commClause pos _ _ _ _ => pos
  | .selectOn pos _ => pos
  | .loop pos _ _ _ _ => pos
  | .iterate pos _ _ _ _ _ => pos
  | .bareIf => 0
  | .bareSwitch => 0

/-- Where a function declaration ends: with its body, or with its signature. -/
def FuncDecl.stop (f : FuncDecl) : Pos :=
  match f.body with
  | .absent => f.signatureStop
  | body => body.stop

/-- Where a declaration ends. -/
def Decl.stop : Decl → Pos
  | .group pos _ specs close => if close ≠ 0 then close + 1 else Spec.stopOfFirst pos specs
  | .func f => f.stop

/-- Where the last declaration of a file ends, or the package name for a file without any. -/
def SourceFile.stop (f : SourceFile) : Pos :=
  match f.decls.getLast? with
  | some d => d.stop
  | none => f.name.stop

/-- The braces of a block hold these statements; none for anything else. -/
def Stmt.blockBody? : Stmt → Option (List Stmt)
  | .block _ body _ => some body
  | _ => none

/-- Nothing stands in place of an expression. -/
def Expr.isAbsent : Expr → Bool
  | .absent => true
  | _ => false

/-- Nothing stands in place of a statement. -/
def Stmt.isAbsent : Stmt → Bool
  | .absent => true
  | _ => false

/-- The expression without the parentheses around it. -/
def Expr.unparen : Expr → Expr
  | .paren _ inner _ => inner.unparen
  | e => e

end CaseCover
