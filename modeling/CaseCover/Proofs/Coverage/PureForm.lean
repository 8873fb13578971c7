import CaseCover.Coverage.Match
import CaseCover.Proofs.Source.Words
import CaseCover.Proofs.Text.Pieces

/-!
# Forms of pure expressions

A pure expression has signs in front, a name or literal at its root, and names that are selected
from it (`PureForm`). It is printed without parentheses and blanks. Still the form can be read off
what is printed (`PureForm.eq_of_text_eq`): the first byte that is no sign starts the root and tells
whether it is a name or a literal, and names are cut at the periods, which they do not hold. Literals
may hold periods and signs, but nothing is selected from them in a sound program.
-/

namespace CaseCover

/-- A sign in front of an expression. -/
inductive Sign where
  | plus
  | minus
deriving DecidableEq

/-- The byte that a sign is written as. -/
def Sign.byte : Sign → UInt8
  | .plus => 0x2B
  | .minus => 0x2D

/-- What stands at the root of a pure expression: a name or a literal. -/
inductive Root where
  | name (text : Text)
  | literal (text : Text)
deriving DecidableEq

def Root.text : Root → Text
  | .name text => text
  | .literal text => text

/-- The form of a pure expression: the signs in front of it, the name or literal at its root, and
the names that are selected from it one after the other. -/
structure PureForm where
  signs : List Sign
  root : Root
  selected : List Text
deriving DecidableEq

namespace PureForm

/-- The form with one more sign in front of it. -/
def signed (s : Sign) (f : PureForm) : PureForm := { f with signs := s :: f.signs }

/-- The form with one more name selected from it. -/
def select (f : PureForm) (name : Text) : PureForm := { f with selected := f.selected ++ [name] }

/-- The form in one line. -/
def text (f : PureForm) : Text :=
  f.signs.map Sign.byte ++ Text.join "." (f.root.text :: f.selected)

end PureForm

/-- The form of a name, a literal, or names selected from one. -/
def Expr.selection? : Expr → Option PureForm
  | .ident id => some ⟨[], .name id.name, []⟩
  | .literal _ _ text => some ⟨[], .literal text, []⟩
  | .selector x sel => x.selection?.map (·.select sel.name)
  | _ => none

/-- The form of a pure expression, with all signs in front. -/
def Expr.pureForm? : Expr → Option PureForm
  | .unary _ .add x => x.pureForm?.map (·.signed .plus)
  | .unary _ .sub x => x.pureForm?.map (·.signed .minus)
  | e => e.selection?

/-! ## The printed form -/

variable {e a b : Expr} {f g : PureForm}

theorem Expr.text_of_selection? (h : e.selection? = some f) : e.text = f.text ∧ f.signs = [] := by
  fun_induction Expr.selection? e generalizing f with
  | case1 id =>
    cases h
    exact ⟨rfl, rfl⟩
  | case2 pos kind text =>
    cases h
    exact ⟨rfl, rfl⟩
  | case3 x sel ih =>
    obtain ⟨f, hf, rfl⟩ := Option.map_eq_some_iff.mp h
    obtain ⟨htext, hsigns⟩ := ih hf
    refine ⟨?_, hsigns⟩
    rw [Expr.text, htext, PureForm.text, PureForm.text, PureForm.select, ← List.cons_append,
      Text.join_concat (List.cons_ne_nil _ _)]
    simp only [List.append_assoc]
  | case4 => cases h

theorem Expr.text_of_pureForm? (h : e.pureForm? = some f) : e.text = f.text := by
  fun_induction Expr.pureForm? e generalizing f with
  | case1 pos x ih =>
    obtain ⟨f, hf, rfl⟩ := Option.map_eq_some_iff.mp h
    rw [Expr.text, ih hf]
    rfl
  | case2 pos x ih =>
    obtain ⟨f, hf, rfl⟩ := Option.map_eq_some_iff.mp h
    rw [Expr.text, ih hf]
    rfl
  | case3 e => exact (Expr.text_of_selection? h).1

/-! ## Unique readability -/

/-- The texts at the root are read as a name or as a literal. -/
def Root.IsRead : Root → Prop
  | .name text => Token.IsRead .ident text
  | .literal text => ∃ kind, Token.IsRead (.literal kind) text

/-- The texts in the form are those of tokens. -/
structure PureForm.IsRead (f : PureForm) : Prop where
  root : f.root.IsRead
  selected : ∀ name ∈ f.selected, Token.IsRead .ident name

/-- Nothing is selected from a literal. -/
def PureForm.SelectsFromName (f : PureForm) : Prop :=
  ∀ text, f.root = .literal text → f.selected = []

theorem Sign.eq_of_map_byte_append {ss ts : List Sign} {u v : Text}
    (hu : ∀ s : Sign, u.head? ≠ some s.byte) (hv : ∀ s : Sign, v.head? ≠ some s.byte)
    (h : ss.map Sign.byte ++ u = ts.map Sign.byte ++ v) : ss = ts ∧ u = v := by
  induction ss generalizing ts with
  | nil =>
    cases ts with
    | nil => exact ⟨rfl, h⟩
    | cons t ts =>
      have hhead := congrArg List.head? h
      exact absurd hhead (hu t)
  | cons s ss ih =>
    cases ts with
    | nil =>
      have hhead := congrArg List.head? h
      exact absurd hhead.symm (hv s)
    | cons t ts =>
      obtain ⟨hbyte, hrest⟩ := List.cons.inj h
      obtain ⟨rfl, rfl⟩ := ih hrest
      cases s <;> cases t <;> first | exact ⟨rfl, rfl⟩ | cases hbyte

/-- The first byte of a name or literal tells which of them it is. -/
def Root.StartsWith (b : UInt8) : Root → Prop
  | .name _ => Token.startsName b = true
  | .literal _ => Token.startsLiteral b = true

theorem Root.exists_head {root : Root} (h : root.IsRead) (names : List Text) :
    ∃ b tail, Text.join "." (root.text :: names) = b :: tail ∧ root.StartsWith b := by
  have hjoin {b : UInt8} {tail : Text} (htext : root.text = b :: tail) :
      ∃ tail, Text.join "." (root.text :: names) = b :: tail := by
    rw [htext]
    cases names with
    | nil => exact ⟨tail, rfl⟩
    | cons name names => exact ⟨_, rfl⟩
  cases root with
  | name text =>
    obtain ⟨⟨b, tail, htext, hstart⟩, -⟩ := Token.IsRead.ident h
    obtain ⟨tail, h⟩ := hjoin htext
    exact ⟨b, tail, h, hstart⟩
  | literal text =>
    obtain ⟨kind, hkind⟩ := h
    obtain ⟨b, tail, htext, hstart⟩ := hkind.literal
    obtain ⟨tail, h⟩ := hjoin htext
    exact ⟨b, tail, h, hstart⟩

/-- Neither a name nor a literal starts with a sign. -/
theorem Root.head?_ne_sign {root : Root} (h : root.IsRead) (names : List Text) (s : Sign) :
    (Text.join "." (root.text :: names)).head? ≠ some s.byte := by
  have hsign : Token.startsName s.byte = false ∧ Token.startsLiteral s.byte = false := by
    cases s <;> decide
  obtain ⟨b, tail, hjoin, hstart⟩ := exists_head h names
  rw [hjoin]
  rintro ⟨⟩
  cases root with
  | name text => exact absurd hstart (by simp [StartsWith, hsign.1])
  | literal text => exact absurd hstart (by simp [StartsWith, hsign.2])

/-- Names come back from between the periods. -/
theorem splitOn_join_names {names : List Text} (hne : names ≠ [])
    (h : ∀ name ∈ names, Token.IsRead .ident name) :
    Text.splitOn "." (Text.join "." names) = names := by
  have hperiod : (utf8 "." : Text) = 0x2E :: [] := by decide
  rw [hperiod]
  refine Text.splitOn_join_eq_self List.not_mem_nil hne fun name hname hin => ?_
  exact (h name hname).ident.2 (hin.subset (List.mem_singleton_self _))

/-- Behind the signs the root and the selected names can be read off. -/
theorem Root.eq_of_join_eq {root root' : Root} {names names' : List Text} (h : root.IsRead)
    (h' : root'.IsRead) (hnames : ∀ name ∈ names, Token.IsRead .ident name)
    (hnames' : ∀ name ∈ names', Token.IsRead .ident name)
    (hfrom : ∀ text, root = .literal text → names = [])
    (hfrom' : ∀ text, root' = .literal text → names' = [])
    (hjoin : Text.join "." (root.text :: names) = Text.join "." (root'.text :: names')) :
    root = root' ∧ names = names' := by
  obtain ⟨b, tail, hb, hstart⟩ := exists_head h names
  obtain ⟨c, tail', hc, hstart'⟩ := exists_head h' names'
  have hbc : b = c := by
    rw [hb, hc] at hjoin
    exact (List.cons.inj hjoin).1
  subst hbc
  have hapart (hname : Token.startsName b = true) (hliteral : Token.startsLiteral b = true) :
      False := by
    rw [Token.startsName_eq_false (.inl hliteral)] at hname
    cases hname
  cases root with
  | name text =>
    cases root' with
    | name text' =>
      -- the names are found again by cutting at the periods
      have hsplit := congrArg (Text.splitOn ".") hjoin
      have hall : ∀ name ∈ text :: names, Token.IsRead .ident name :=
        List.forall_mem_cons.mpr ⟨h, hnames⟩
      have hall' : ∀ name ∈ text' :: names', Token.IsRead .ident name :=
        List.forall_mem_cons.mpr ⟨h', hnames'⟩
      simp only [Root.text] at hsplit
      rw [splitOn_join_names (List.cons_ne_nil text names) hall,
        splitOn_join_names (List.cons_ne_nil text' names') hall'] at hsplit
      obtain ⟨rfl, rfl⟩ := List.cons.inj hsplit
      exact ⟨rfl, rfl⟩
    | literal text' => exact (hapart hstart hstart').elim
  | literal text =>
    cases root' with
    | name text' => exact (hapart hstart' hstart).elim
    | literal text' =>
      obtain rfl := hfrom text rfl
      obtain rfl := hfrom' text' rfl
      obtain rfl : text = text' := hjoin
      exact ⟨rfl, rfl⟩

theorem PureForm.eq_of_text_eq (hf : f.IsRead) (hg : g.IsRead) (hf' : f.SelectsFromName)
    (hg' : g.SelectsFromName) (h : f.text = g.text) :
    f.signs = g.signs ∧ f.selected = g.selected ∧ f.root = g.root := by
  obtain ⟨hsigns, hjoin⟩ := Sign.eq_of_map_byte_append (Root.head?_ne_sign hf.root f.selected)
    (Root.head?_ne_sign hg.root g.selected) h
  obtain ⟨hroot, hselected⟩ :=
    Root.eq_of_join_eq hf.root hg.root hf.selected hg.selected hf' hg' hjoin
  exact ⟨hsigns, hselected, hroot⟩

end CaseCover
