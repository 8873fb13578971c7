import CaseCover.Source.Statements

/-!
# Statements in depth-first order

`SourcePart.children` lists the parts of an expression, a statement, a declaration or a file in
source order. The statements of a part are the part itself, if it is a statement, followed by the
statements of its children one after the other (`statements_eq`): that is the depth-first order. Two
facts follow by induction on the size of a part:

* `mem_statements_iff` : the list holds the statements at any depth, and nothing else;
* `nested_statements` : from any statement on, the list goes on with the statements inside it.
-/

namespace CaseCover

/-- A part of a source file. -/
inductive SourcePart where
  | expr (e : Expr)
  | stmt (s : Stmt)
  | spec (s : Spec)
  | decl (d : Decl)
  | file (f : SourceFile)

namespace SourcePart

/-- The parts that expressions, statements and entries have, in source order. -/
def children : SourcePart → List SourcePart
  | .expr (.paren _ inner _) => [.expr inner]
  | .expr (.selector x _) => [.expr x]
  | .expr (.index x args _) => .expr x :: args.map .expr
  | .expr (.slice x low high max _ _) => [.expr x, .expr low, .expr high, .expr max]
  | .expr (.assertion x type _) => [.expr x, .expr type]
  | .expr (.call fn args _ _) => .expr fn :: args.map .expr
  | .expr (.star _ x) => [.expr x]
  | .expr (.unary _ _ x) => [.expr x]
  | .expr (.binary x _ y) => [.expr x, .expr y]
  | .expr (.pair key value) => [.expr key, .expr value]
  | .expr (.composite type _ elements _) => .expr type :: elements.map .expr
  | .expr (.function type body) => [.expr type, .stmt body]
  | .expr (.ellipsis _ element) => [.expr element]
  | .expr (.arrayType _ length element) => [.expr length, .expr element]
  | .expr (.structType _ fields _) => fields.map .expr
  | .expr (.funcType _ typeParams params results _) =>
    typeParams.map .expr ++ params.map .expr ++ results.map .expr
  | .expr (.interfaceType _ members _) => members.map .expr
  | .expr (.mapType _ key value) => [.expr key, .expr value]
  | .expr (.chanType _ _ value) => [.expr value]
  | .expr (.field _ type _) => [.expr type]
  | .expr _ => []
  | .stmt (.decl _ _ specs _) => specs.map .spec
  | .stmt (.labeled _ body) => [.stmt body]
  | .stmt (.expr x) => [.expr x]
  | .stmt (.send chan value) => [.expr chan, .expr value]
  | .stmt (.incDec x _ _) => [.expr x]
  | .stmt (.assign lhs _ rhs) => lhs.map .expr ++ rhs.map .expr
  | .stmt (.spawn _ call) => [.expr call]
  | .stmt (.postpone _ call) => [.expr call]
  | .stmt (.giveBack _ results) => results.map .expr
  | .stmt (.block _ body _) => body.map .stmt
  | .stmt (.ifChain _ init cond body other) => [.stmt init, .expr cond, .stmt body, .stmt other]
  | .stmt (.caseClause _ _ exprs _ body) => exprs.map .expr ++ body.map .stmt
  | .stmt (.switchOn _ init tag body) => [.stmt init, .expr tag, .stmt body]
  | .stmt (.typeSwitch _ init guard body) => [.stmt init, .stmt guard, .stmt body]
  | .stmt (.commClause _ _ comm _ body) => .stmt comm :: body.map .stmt
  | .stmt (.selectOn _ body) => [.stmt body]
  | .stmt (.loop _ init cond post body) => [.stmt init, .expr cond, .stmt post, .stmt body]
  | .stmt (.iterate _ key value _ subject body) =>
    [.expr key, .expr value, .expr subject, .stmt body]
  | .stmt _ => []
  | .spec (.importing _ _ _) => []
  | .spec (.values _ type values) => .expr type :: values.map .expr
  | .spec (.type _ params _ type) => params.map .expr ++ [.expr type]
  | .decl (.group _ _ specs _) => specs.map .spec
  | .decl (.func f) =>
    (f.receiver.getD []).map .expr ++ f.typeParams.map .expr ++ f.params.map .expr ++
      f.results.map .expr ++ [.stmt f.body]
  | .file f => f.decls.map .decl

/-- The statements of a part. -/
def statements : SourcePart → List Stmt
  | .expr e => e.statements
  | .stmt s => s.statements
  | .spec s => s.statements
  | .decl d => d.statements
  | .file f => f.statements

/-- The part itself, if it is a statement. -/
def own : SourcePart → List Stmt
  | .stmt .absent => []
  | .stmt s => [s]
  | _ => []

/-- The parts of a part at any depth, itself included. -/
inductive Within (root : SourcePart) : SourcePart → Prop where
  | self : Within root root
  | child {n c : SourcePart} : Within root n → c ∈ n.children → Within root c

/-! ## The order -/

theorem flatMap_statements_map {α : Type} (f : α → SourcePart) (g : List α → List Stmt)
    (hnil : g [] = []) (hcons : ∀ a as, g (a :: as) = (f a).statements ++ g as) (as : List α) :
    (as.map f).flatMap statements = g as := by
  induction as with
  | nil => exact hnil.symm
  | cons a as ih => rw [List.map_cons, List.flatMap_cons, ih, hcons]

theorem flatMap_statements_exprs (es : List Expr) :
    (es.map SourcePart.expr).flatMap statements = Expr.statementsOfAll es :=
  flatMap_statements_map _ _ rfl (fun _ _ => rfl) es

theorem flatMap_statements_stmts (ss : List Stmt) :
    (ss.map SourcePart.stmt).flatMap statements = Stmt.statementsOfAll ss :=
  flatMap_statements_map _ _ rfl (fun _ _ => rfl) ss

theorem flatMap_statements_specs (ss : List Spec) :
    (ss.map SourcePart.spec).flatMap statements = Spec.statementsOfAll ss :=
  flatMap_statements_map _ _ rfl (fun _ _ => rfl) ss

/-- A part comes before its children, and these come one after the other. -/
theorem statements_eq (n : SourcePart) :
    n.statements = n.own ++ n.children.flatMap statements := by
  cases n with
  | expr e =>
    cases e <;> simp [statements, own, children, Expr.statements, flatMap_statements_exprs]
  | stmt s =>
    cases s <;> simp [statements, own, children, Stmt.statements, flatMap_statements_exprs,
      flatMap_statements_stmts, flatMap_statements_specs]
  | spec s =>
    cases s <;> simp [statements, own, children, Spec.statements, flatMap_statements_exprs]
  | decl d =>
    cases d <;> simp [statements, own, children, Decl.statements, flatMap_statements_exprs,
      flatMap_statements_specs]
  | file f => simp [statements, own, children, SourceFile.statements, List.flatMap_map]

/-- Children are smaller, so that induction on parts is possible. -/
theorem sizeOf_lt_of_mem_children {n c : SourcePart} (h : c ∈ n.children) :
    sizeOf c < sizeOf n := by
  cases n with
  | expr e =>
    cases e <;> simp only [children, List.mem_cons, List.mem_append, List.mem_map,
      List.not_mem_nil, or_false] at h <;> grind [→ List.sizeOf_lt_of_mem]
  | stmt s =>
    cases s <;> simp only [children, List.mem_cons, List.mem_append, List.mem_map,
      List.not_mem_nil, or_false] at h <;> grind [→ List.sizeOf_lt_of_mem]
  | spec s =>
    cases s <;> simp only [children, List.mem_cons, List.mem_append, List.mem_map,
      List.not_mem_nil, or_false] at h <;> grind [→ List.sizeOf_lt_of_mem]
  | decl d =>
    cases d with
    | group pos kind specs close =>
      simp only [children, List.mem_map] at h
      grind [→ List.sizeOf_lt_of_mem]
    | func f =>
      obtain ⟨pos, receiver, name, typeParams, params, results, hasResults, stop, body⟩ := f
      simp only [children, List.mem_cons, List.mem_append, List.mem_map, List.not_mem_nil,
        or_false] at h
      cases receiver <;> grind [→ List.sizeOf_lt_of_mem]
  | file f =>
    obtain ⟨package, name, decls, comments⟩ := f
    simp only [children, List.mem_map] at h
    grind [→ List.sizeOf_lt_of_mem]

/-- Induction on the parts of a part. -/
theorem induct {motive : SourcePart → Prop} (step : ∀ n, (∀ c ∈ n.children, motive c) → motive n)
    (n : SourcePart) : motive n := by
  -- the children of a part are of all kinds, so there is one induction on the size for all of them
  induction h : sizeOf n using Nat.strongRecOn generalizing n with
  | _ size ih =>
    subst h
    exact step n fun c hc => ih (sizeOf c) (sizeOf_lt_of_mem_children hc) c rfl

/-- Only a statement adds one of its own. -/
theorem own_eq (n : SourcePart) : n.own = [] ∨ ∃ s, n = .stmt s ∧ n.own = [s] := by
  cases n with
  | stmt s => cases s <;> simp [own]
  | _ => exact Or.inl rfl

/-! ## Statements at any depth -/

/-- What is within a part of a part is within the whole. -/
theorem Within.trans {a b c : SourcePart} (hab : Within a b) (hbc : Within b c) : Within a c := by
  induction hbc with
  | self => exact hab
  | child _ hc ih => exact ih.child hc

/-- A statement at any depth is visited, if it is there. -/
theorem mem_statements_of_within {root : SourcePart} {s : Stmt} (hs : s.isAbsent = false)
    (h : Within root (.stmt s)) : s ∈ root.statements := by
  have hup {n : SourcePart} (hn : Within root n) : s ∈ n.statements → s ∈ root.statements := by
    induction hn with
    | self => exact id
    | child _ hc ih =>
      intro hmem
      refine ih ?_
      rw [statements_eq]
      exact List.mem_append_right _ (List.mem_flatMap.mpr ⟨_, hc, hmem⟩)
  refine hup h ?_
  rw [statements_eq]
  cases s <;> simp [own, Stmt.isAbsent] at hs ⊢

/-- The statements of a part are those at any depth below it. -/
theorem mem_statements_iff {root : SourcePart} {s : Stmt} :
    s ∈ root.statements ↔ Within root (.stmt s) ∧ s.isAbsent = false := by
  refine ⟨fun h => ?_, fun h => mem_statements_of_within h.2 h.1⟩
  induction root using SourcePart.induct with
  | step n ih =>
    rw [statements_eq, List.mem_append, List.mem_flatMap] at h
    rcases h with h | ⟨c, hc, h⟩
    · cases n with
      | stmt t => cases t <;> simp [own] at h <;> subst h <;> exact ⟨Within.self, rfl⟩
      | _ => cases h
    · obtain ⟨hwithin, hs⟩ := ih c hc h
      exact ⟨(Within.self.child hc).trans hwithin, hs⟩

end SourcePart

/-! ## What follows a statement -/

/-- From each statement on, the list goes on with the statements inside it. -/
def Nested (l : List Stmt) : Prop := ∀ n s, l[n]? = some s → s.statements <+: l.drop n

theorem Nested.nil : Nested [] := by
  intro n s h
  simp at h

theorem Nested.cons {s : Stmt} {l : List Stmt} (hs : s.statements = s :: l) (hl : Nested l) :
    Nested (s :: l) := by
  intro n t h
  cases n with
  | zero =>
    cases h
    rw [hs]
    exact List.prefix_rfl
  | succ n => exact hl n t h

theorem Nested.append {a b : List Stmt} (ha : Nested a) (hb : Nested b) : Nested (a ++ b) := by
  intro n s h
  by_cases hn : n < a.length
  · rw [List.getElem?_append_left hn] at h
    rw [List.drop_append_of_le_length (by omega)]
    exact (ha n s h).trans (List.prefix_append _ _)
  · rw [List.getElem?_append_right (by omega)] at h
    rw [List.drop_append, List.drop_eq_nil_of_le (by omega), List.nil_append]
    exact hb _ s h

theorem Nested.flatMap {α : Type} {f : α → List Stmt} {l : List α} (h : ∀ x ∈ l, Nested (f x)) :
    Nested (l.flatMap f) := by
  induction l with
  | nil => exact Nested.nil
  | cons x l ih =>
    rw [List.flatMap_cons]
    exact (h x List.mem_cons_self).append (ih fun y hy => h y (List.mem_cons_of_mem x hy))

/-- In the order of visits, every statement is followed by those inside it. -/
theorem SourcePart.nested_statements (n : SourcePart) : Nested n.statements := by
  induction n using SourcePart.induct with
  | step n ih =>
    have hchildren : Nested (n.children.flatMap statements) := Nested.flatMap ih
    rcases n.own_eq with hown | ⟨s, rfl, hown⟩
    · rw [statements_eq, hown]
      exact hchildren
    · have hs : s.statements = s :: (SourcePart.stmt s).children.flatMap statements := by
        have := statements_eq (.stmt s)
        rw [hown] at this
        exact this
      rw [statements_eq, hown]
      exact Nested.cons hs hchildren

end CaseCover
