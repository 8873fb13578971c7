import CaseCover.Proofs.Path.Clean

/-!
# Paths inside a directory

A path lies inside a directory if its cleaned components are those of the directory and some more
(`Inside`). The names that come on top are its path relative to the directory (`Inside.rel_eq`). One
joined path goes on after another one and a separator exactly if its components do
(`join_separator_prefix_iff`), so a prefix of the text that ends at a separator is a directory on the way.

A relative path that is taken in a directory first goes up by its leading `..` and then down by its
names (`cleanComponents_join`).
-/

namespace CaseCover.Path

/-! ## Joined components -/

/-- Joined components are joined by a separator. -/
theorem join_append {as bs : List Text} (has : as ≠ []) (hbs : bs ≠ []) :
    Text.join [separator] (as ++ bs) =
      Text.join [separator] as ++ separator :: Text.join [separator] bs := by
  induction as with
  | nil => exact absurd rfl has
  | cons a as ih =>
    cases as with
    | nil =>
      obtain ⟨b, bs, rfl⟩ := List.exists_cons_of_ne_nil hbs
      simp [Text.join]
    | cons a' as =>
      have hrest := ih (by simp)
      simp only [List.cons_append, Text.join] at hrest ⊢
      rw [hrest]
      simp

/-- Components without separators come back from the joined path. -/
theorem join_inj {as bs : List Text} (has : as ≠ []) (hbs : bs ≠ [])
    (hsepa : ∀ c ∈ as, separator ∉ c) (hsepb : ∀ c ∈ bs, separator ∉ c) :
    Text.join [separator] as = Text.join [separator] bs ↔ as = bs := by
  refine ⟨fun h => ?_, fun h => h ▸ rfl⟩
  rw [← components_join has hsepa, h, components_join hbs hsepb]

theorem components_ne_nil (p : Text) : components p ≠ [] := by
  rw [components_eq]
  exact List.splitOn_ne_nil _ _

/-- A path followed by a separator starts another one exactly if that one has its components and
then some more. -/
theorem join_separator_prefix_iff {ds cs : List Text} (hds : ds ≠ []) (hcs : cs ≠ [])
    (hsepd : ∀ c ∈ ds, separator ∉ c) (hsepc : ∀ c ∈ cs, separator ∉ c) :
    Text.join [separator] ds ++ [separator] <+: Text.join [separator] cs ↔ ds <+: cs ∧ ds ≠ cs := by
  constructor
  · rintro ⟨t, ht⟩
    rw [List.append_assoc, List.singleton_append] at ht
    have hsplit : ds ++ components t = cs := by
      rw [← components_join hcs hsepc, ← ht, components_append, components_join hds hsepd]
    refine ⟨⟨_, hsplit⟩, fun heq => components_ne_nil t ?_⟩
    rw [heq] at hsplit
    exact List.append_right_eq_self.mp hsplit
  · rintro ⟨⟨es, rfl⟩, hne⟩
    have hes : es ≠ [] := fun h => hne (by simp [h])
    rw [join_append hds hes]
    exact ⟨Text.join [separator] es, by simp⟩

/-! ## Absolute paths -/

/-- An absolute path that is cleaned has no steps upwards. -/
theorem isPlain_of_mem_cleanComponents {p c : Text} (hp : isAbs p = true)
    (hc : c ∈ cleanComponents p) : IsPlain c := by
  obtain ⟨names, ups, hstack, hnames, hups⟩ := cleanComponents_isNormal p
  rw [hups hp, List.replicate_zero, List.append_nil] at hstack
  exact hnames c (by rw [← hstack, List.mem_reverse]; exact hc)

theorem clean_of_isAbs {p : Text} (hp : isAbs p = true) :
    clean p = separator :: Text.join [separator] (cleanComponents p) := by
  rw [clean_eq, if_pos hp]

/-- A path lies inside a directory, and these are the names on the way down to it. -/
structure Inside (dir path : Text) (names : List Text) : Prop where
  dirAbs : isAbs dir = true
  pathAbs : isAbs path = true
  nonempty : names ≠ []
  components : cleanComponents path = cleanComponents dir ++ names

theorem Inside.isPlain {dir path : Text} {names : List Text} (h : Inside dir path names) :
    ∀ c ∈ names, IsPlain c := by
  intro c hc
  refine isPlain_of_mem_cleanComponents h.pathAbs ?_
  rw [h.components]
  exact List.mem_append_right _ hc

theorem Inside.path_ne_nil {dir path : Text} {names : List Text} (h : Inside dir path names) :
    path ≠ [] := by
  rintro rfl
  exact absurd h.pathAbs (by decide)

/-- A path below another one has all of its components in common with it. -/
theorem dropCommon_append (as bs : List Text) : dropCommon as (as ++ bs) = ([], bs) := by
  induction as with
  | nil => cases bs <;> rfl
  | cons a as ih => simp [dropCommon, ih]

/-- The names on the way down make up the relative path. -/
theorem Inside.rel_eq {dir path : Text} {names : List Text} (h : Inside dir path names) :
    rel dir path = some (Text.join [separator] names) := by
  have hdir := clean_of_isAbs h.dirAbs
  have hpath := clean_of_isAbs h.pathAbs
  have hne : clean dir ≠ clean path := by
    intro heq
    have hcomponents : cleanComponents (clean dir) = cleanComponents (clean path) := by rw [heq]
    rw [cleanComponents_clean, cleanComponents_clean, h.components] at hcomponents
    exact h.nonempty (List.append_right_eq_self.mp hcomponents.symm)
  have hnotDot (p : Text) (hp : isAbs p = true) : (clean p == utf8 ".") = false := by
    rw [beq_eq_false_iff_ne, clean_of_isAbs hp]
    intro heq
    exact absurd (List.cons.inj heq).1 (by decide)
  unfold rel
  simp only [beq_eq_false_iff_ne.mpr hne, isAbs_clean, h.dirAbs, h.pathAbs, hnotDot dir h.dirAbs,
    hnotDot path h.pathAbs, cleanComponents_clean, h.components, Bool.false_eq_true, ↓reduceIte,
    bne_self_eq_false, dropCommon_append]
  rfl

theorem Inside.clean_dir {dir path : Text} {names : List Text} (h : Inside dir path names) :
    Inside (clean dir) path names :=
  ⟨by rw [isAbs_clean]; exact h.dirAbs, h.pathAbs, h.nonempty, by
    rw [cleanComponents_clean]; exact h.components⟩

/-- The base of a clean path inside a directory is a plain name. -/
theorem Inside.isPlain_base {dir path : Text} {names : List Text} (h : Inside dir path names)
    (hclean : clean path = path) : IsPlain (base path) := by
  have hne : Path.cleanComponents path ≠ [] := by
    rw [h.components]
    simp [h.nonempty]
  obtain ⟨cs, c, hcs⟩ : ∃ cs c, cleanComponents path = cs ++ [c] :=
    ⟨_, _, (List.dropLast_concat_getLast hne).symm⟩
  have hc : IsPlain c := isPlain_of_mem_cleanComponents h.pathAbs (by simp [hcs])
  have hbase : ∃ lead, path = lead ++ separator :: c := by
    rw [← hclean, clean_of_isAbs h.pathAbs, hcs]
    by_cases hnil : cs = []
    · exact ⟨[], by simp [hnil, Text.join]⟩
    · exact ⟨separator :: Text.join [separator] cs, by rw [Text.join_concat hnil]; rfl⟩
  obtain ⟨lead, hlead⟩ := hbase
  rw [hlead, base_append lead hc]
  exact hc

/-! ## Relative paths taken in a directory -/

/-- One more component changes what is on top of a directory as it does on top of nothing, and `..`
on top of nothing goes up from the directory. -/
theorem push_onto {names stack : List Text} (ups : Nat) {c : Text}
    (hnames : ∀ c ∈ names, IsPlain c) (hstack : ∀ c ∈ stack, IsPlain c) (hc : separator ∉ c) :
    ∃ names' ups', (∀ c ∈ names', IsPlain c) ∧
      push false (names ++ List.replicate ups (utf8 "..")) c =
        names' ++ List.replicate ups' (utf8 "..") ∧
      push true (names ++ stack.drop ups) c = names' ++ stack.drop ups' := by
  by_cases hplain : IsPlain c
  · refine ⟨c :: names, ups, ?_, push_of_isPlain hplain, push_of_isPlain hplain⟩
    simpa [hplain] using hnames
  by_cases hempty : c = [] ∨ c = utf8 "."
  · have hskip : (c.isEmpty || c == utf8 ".") = true := by simpa using hempty
    exact ⟨names, ups, hnames, if_pos hskip, if_pos hskip⟩
  have hdots : c = utf8 ".." := Decidable.byContradiction fun hdots =>
    hplain ⟨fun h => hempty (.inl h), fun h => hempty (.inr h), hdots, hc⟩
  subst hdots
  cases names with
  | nil =>
    refine ⟨[], ups + 1, by simp, ?_, ?_⟩
    · cases ups with
      | zero => rfl
      | succ ups => rfl
    · rw [List.nil_append, List.nil_append, ← List.drop_drop]
      cases hdrop : stack.drop ups with
      | nil => rfl
      | cons top below =>
        have htop : (top == utf8 "..") = false := by
          have hmem : top ∈ stack := List.mem_of_mem_drop (by rw [hdrop]; exact List.mem_cons_self)
          simpa using (hstack top hmem).notDots
        change (if top == utf8 ".." then utf8 ".." :: top :: below else below) = _
        rw [htop]
        rfl
  | cons top names =>
    have htop : (top == utf8 "..") = false := by
      simpa using (hnames top List.mem_cons_self).notDots
    refine ⟨names, ups, fun c hc => hnames c (List.mem_cons_of_mem top hc), ?_, ?_⟩
    · change (if top == utf8 ".." then _ else names ++ _) = _
      rw [htop]
      rfl
    · change (if top == utf8 ".." then _ else names ++ _) = _
      rw [htop]
      rfl

/-- Pushed by themselves, components come to steps upwards and names. Pushed onto a directory, they
come to what the steps leave of it and the same names. -/
theorem foldl_push_onto {cs names stack : List Text} (ups : Nat) (hnames : ∀ c ∈ names, IsPlain c)
    (hstack : ∀ c ∈ stack, IsPlain c) (hcs : ∀ c ∈ cs, separator ∉ c) :
    ∃ names' ups', (∀ c ∈ names', IsPlain c) ∧
      cs.foldl (push false) (names ++ List.replicate ups (utf8 "..")) =
        names' ++ List.replicate ups' (utf8 "..") ∧
      cs.foldl (push true) (names ++ stack.drop ups) = names' ++ stack.drop ups' := by
  induction cs generalizing names ups with
  | nil => exact ⟨names, ups, hnames, rfl, rfl⟩
  | cons c cs ih =>
    obtain ⟨names', ups', hnames', hfalse, htrue⟩ :=
      push_onto ups hnames hstack (hcs c List.mem_cons_self)
    rw [List.foldl_cons, List.foldl_cons, hfalse, htrue]
    exact ih ups' hnames' fun x hx => hcs x (List.mem_cons_of_mem c hx)

/-- The components of a relative path that is taken in a directory: those of the directory, less one
for each `..` that the path starts with, and then its names. -/
theorem cleanComponents_absolute {dir p : Text} (hdir : isAbs dir = true) (hp : isAbs p = false)
    (hne : p ≠ []) :
    ∃ ups names, (∀ c ∈ names, IsPlain c) ∧
      cleanComponents p = List.replicate ups (utf8 "..") ++ names ∧
      cleanComponents (absolute dir p) =
        (cleanComponents dir).take ((cleanComponents dir).length - ups) ++ names := by
  have hstack : ∀ c ∈ (cleanComponents dir).reverse, IsPlain c := fun c hc =>
    isPlain_of_mem_cleanComponents hdir (List.mem_reverse.mp hc)
  have hnone : ∀ c ∈ ([] : List Text), IsPlain c := by simp
  obtain ⟨names, ups, hnames, hfalse, htrue⟩ :=
    foldl_push_onto 0 hnone hstack fun c hc => not_mem_of_mem_components (p := p) hc
  have hdirne : dir ≠ [] := fun h => by simp [h, isAbs] at hdir
  refine ⟨ups, names.reverse, fun c hc => hnames c (List.mem_reverse.mp hc), ?_, ?_⟩
  · have hfold : (Path.components p).foldl (push false) [] =
        names ++ List.replicate ups (utf8 "..") := hfalse
    rw [cleanComponents, hp, hfold]
    simp
  · have hjoin : absolute dir p = clean (dir ++ separator :: p) := by
      simp [absolute, hp, join, hdirne, hne, Text.join]
    have hfold : (Path.components dir).foldl (push true) [] = (cleanComponents dir).reverse := by
      rw [cleanComponents, hdir, List.reverse_reverse]
    have hover : (Path.components p).foldl (push true) (cleanComponents dir).reverse =
        names ++ (cleanComponents dir).reverse.drop ups := htrue
    rw [hjoin, cleanComponents_clean, cleanComponents, isAbs_append hdirne, hdir,
      components_append, List.foldl_append, hfold, hover, List.reverse_append, List.drop_reverse,
      List.reverse_reverse]

end CaseCover.Path
