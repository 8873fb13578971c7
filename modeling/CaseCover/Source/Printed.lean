import CaseCover.Source.Tree

/-!
# The printed form of an expression

One line of text with standard spacing. Function bodies and composite elements are abbreviated,
and parentheses are printed where the tree has them and nowhere else.
-/

namespace CaseCover

/-- The names of a field, separated by commas. -/
def Ident.namesText (names : List Ident) : Text := Text.join ", " (names.map (·.name))

/-- A result list that is one type without a name. -/
def Expr.isBareResult : List Expr → Bool
  | [.field [] _ _] => true
  | _ => false

/-- A signature from the printed parameters and results; a single result without a name needs no
parentheses. -/
def Expr.signatureShape (results : List Expr) (paramsText resultsText : Text) : Text :=
  utf8 "(" ++ paramsText ++ utf8 ")" ++
    (if results.isEmpty then []
     else if Expr.isBareResult results then utf8 " " ++ resultsText
     else utf8 " (" ++ resultsText ++ utf8 ")")

/-- A field from its names and the printed type. -/
def Ident.fieldShape (names : List Ident) (typeText : Text) : Text :=
  Ident.namesText names ++ (if names.isEmpty then [] else utf8 " ") ++ typeText

mutual

/-- The printed form of an expression. -/
def Expr.text : Expr → Text
  | .absent => "(ast: <nil>)"
  | .bad _ _ => "(ast: *ast.BadExpr)"
  | .pair _ _ => "(ast: *ast.KeyValueExpr)"
  | .ident id => id.name
  | .literal _ _ text => text
  | .paren _ inner _ => utf8 "(" ++ inner.text ++ utf8 ")"
  | .selector x sel => x.text ++ utf8 "." ++ sel.name
  | .index x args _ => x.text ++ utf8 "[" ++ Expr.listText args ++ utf8 "]"
  | .slice x low high max full _ =>
    x.text ++ utf8 "[" ++ (if low.isAbsent then [] else low.text) ++ utf8 ":" ++
      (if high.isAbsent then [] else high.text) ++
      (if full then utf8 ":" ++ (if max.isAbsent then [] else max.text) else []) ++ utf8 "]"
  | .assertion x type _ => x.text ++ utf8 ".(" ++ type.text ++ utf8 ")"
  | .call fn args dots _ =>
    fn.text ++ utf8 "(" ++ Expr.listText args ++ (if dots ≠ 0 then utf8 "..." else []) ++
      utf8 ")"
  | .star _ x => utf8 "*" ++ x.text
  | .unary _ op x => op.text ++ x.text
  | .binary x op y => x.text ++ utf8 " " ++ op.text ++ utf8 " " ++ y.text
  | .composite type _ elements _ =>
    type.text ++ utf8 "\x7b" ++ (if elements.isEmpty then [] else utf8 "…") ++ utf8 "\x7d"
  | .function type _ => utf8 "(" ++ type.text ++ utf8 " literal)"
  | .ellipsis _ element => utf8 "..." ++ (if element.isAbsent then [] else element.text)
  | .arrayType _ length element =>
    utf8 "[" ++ (if length.isAbsent then [] else length.text) ++ utf8 "]" ++ element.text
  | .structType _ fields _ => utf8 "struct\x7b" ++ Expr.fieldsText "; " fields ++ utf8 "\x7d"
  | .funcType _ _ params results _ =>
    utf8 "func" ++
      Expr.signatureShape results (Expr.fieldsText ", " params) (Expr.fieldsText ", " results)
  | .interfaceType _ members _ => utf8 "interface\x7b" ++ Expr.membersText members ++ utf8 "\x7d"
  | .mapType _ key value => utf8 "map[" ++ key.text ++ utf8 "]" ++ value.text
  | .chanType _ dir value =>
    (match dir with
     | .both => utf8 "chan "
     | .send => utf8 "chan<- "
     | .receive => utf8 "<-chan ") ++ value.text
  | .field names type _ => Ident.fieldShape names type.text

/-- The printed forms of expressions, separated by commas. -/
def Expr.listText : List Expr → Text
  | [] => []
  | e :: rest => e.text ++ (if rest.isEmpty then [] else utf8 ", ") ++ Expr.listText rest

/-- Fields with a separator between them. -/
def Expr.fieldsText (sep : Text) : List Expr → Text
  | [] => []
  | f :: rest => f.text ++ (if rest.isEmpty then [] else sep) ++ Expr.fieldsText sep rest

/-- The members of an interface; a method is printed without the word `func`. -/
def Expr.membersText : List Expr → Text
  | [] => []
  | .field names (.funcType _ _ params results _) _ :: rest =>
    Ident.namesText names ++
      Expr.signatureShape results (Expr.fieldsText ", " params) (Expr.fieldsText ", " results) ++
      (if rest.isEmpty then [] else utf8 "; ") ++ Expr.membersText rest
  | m :: rest => m.text ++ (if rest.isEmpty then [] else utf8 "; ") ++ Expr.membersText rest

end

end CaseCover
