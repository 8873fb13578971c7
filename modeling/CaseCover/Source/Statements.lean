import CaseCover.Source.Tree

/-!
# All statements of a file

The statements of a file in depth-first source order: a statement comes before the statements
inside it, and function literals are entered wherever they stand in an expression.
-/

namespace CaseCover

mutual

/-- The statements inside an expression. -/
def Expr.statements : Expr → List Stmt
  | .absent => []
  | .bad _ _ => []
  | .ident _ => []
  | .literal _ _ _ => []
  | .paren _ inner _ => inner.statements
  | .selector x _ => x.statements
  | .index x args _ => x.statements ++ Expr.statementsOfAll args
  | .slice x low high max _ _ =>
    x.statements ++ low.statements ++ high.statements ++ max.statements
  | .assertion x type _ => x.statements ++ type.statements
  | .call fn args _ _ => fn.statements ++ Expr.statementsOfAll args
  | .star _ x => x.statements
  | .unary _ _ x => x.statements
  | .binary x _ y => x.statements ++ y.statements
  | .pair key value => key.statements ++ value.statements
  | .composite type _ elements _ => type.statements ++ Expr.statementsOfAll elements
  | .function type body => type.statements ++ body.statements
  | .ellipsis _ element => element.statements
  | .arrayType _ length element => length.statements ++ element.statements
  | .structType _ fields _ => Expr.statementsOfAll fields
  | .funcType _ typeParams params results _ =>
    Expr.statementsOfAll typeParams ++ Expr.statementsOfAll params ++ Expr.statementsOfAll results
  | .interfaceType _ members _ => Expr.statementsOfAll members
  | .mapType _ key value => key.statements ++ value.statements
  | .chanType _ _ value => value.statements
  | .field _ type _ => type.statements

/-- The statements inside a list of expressions. -/
def Expr.statementsOfAll : List Expr → List Stmt
  | [] => []
  | e :: es => e.statements ++ Expr.statementsOfAll es

/-- A statement and the statements inside it. -/
def Stmt.statements : Stmt → List Stmt
  | .absent => []
  | s@(.decl _ _ specs _) => s :: Spec.statementsOfAll specs
  | s@(.empty _ _) => [s]
  | s@(.labeled _ body) => s :: body.statements
  | s@(.expr x) => s :: x.statements
  | s@(.send chan value) => s :: (chan.statements ++ value.statements)
  | s@(.incDec x _ _) => s :: x.statements
  | s@(.assign lhs _ rhs) => s :: (Expr.statementsOfAll lhs ++ Expr.statementsOfAll rhs)
  | s@(.spawn _ call) => s :: call.statements
  | s@(.postpone _ call) => s :: call.statements
  | s@(.giveBack _ results) => s :: Expr.statementsOfAll results
  | s@(.branch _ _ _ _) => [s]
  | s@(.block _ body _) => s :: Stmt.statementsOfAll body
  | s@(.ifChain _ init cond body other) =>
    s :: (init.statements ++ cond.statements ++ body.statements ++ other.statements)
  | s@(.caseClause _ _ exprs _ body) =>
    s :: (Expr.statementsOfAll exprs ++ Stmt.statementsOfAll body)
  | s@(.switchOn _ init tag body) => s :: (init.statements ++ tag.statements ++ body.statements)
  | s@(.typeSwitch _ init guard body) =>
    s :: (init.statements ++ guard.statements ++ body.statements)
  | s@(.commClause _ _ comm _ body) => s :: (comm.statements ++ Stmt.statementsOfAll body)
  | s@(.selectOn _ body) => s :: body.statements
  | s@(.loop _ init cond post body) =>
    s :: (init.statements ++ cond.statements ++ post.statements ++ body.statements)
  | s@(.iterate _ key value _ subject body) =>
    s :: (key.statements ++ value.statements ++ subject.statements ++ body.statements)
  | .bareIf => [.bareIf]
  | .bareSwitch => [.bareSwitch]

/-- The statements of a list and those inside them. -/
def Stmt.statementsOfAll : List Stmt → List Stmt
  | [] => []
  | s :: ss => s.statements ++ Stmt.statementsOfAll ss

/-- The statements inside an entry of a group. -/
def Spec.statements : Spec → List Stmt
  | .importing _ _ _ => []
  | .values _ type values => type.statements ++ Expr.statementsOfAll values
  | .type _ params _ type => Expr.statementsOfAll params ++ type.statements

/-- The statements inside the entries of a group. -/
def Spec.statementsOfAll : List Spec → List Stmt
  | [] => []
  | s :: ss => s.statements ++ Spec.statementsOfAll ss

end

/-- The statements inside a declaration. -/
def Decl.statements : Decl → List Stmt
  | .group _ _ specs _ => Spec.statementsOfAll specs
  | .func f =>
    Expr.statementsOfAll (f.receiver.getD []) ++ Expr.statementsOfAll f.typeParams ++
      Expr.statementsOfAll f.params ++ Expr.statementsOfAll f.results ++ f.body.statements

/-- All statements of a file. -/
def SourceFile.statements (f : SourceFile) : List Stmt := f.decls.flatMap Decl.statements

end CaseCover
