import CaseCover.Path
import CaseCover.Proofs.Text.Pieces

/-!
# Cleaned paths

A path is cut at its separators, the components are pushed on a stack one after the other, and what
stays on the stack is joined again. The stack is always in normal form (`IsNormal`): plain names on
top of some `..`, and no `..` in a rooted path. Pushing a normal stack again changes nothing, so a
clean path keeps its components (`cleanComponents_clean`). A plain name added to a path ends up as
its last component (`cleanComponents_append`).
-/

namespace CaseCover.Path

/-- A name that can stand for an entry of a directory. -/
structure IsPlain (c : Text) : Prop where
  nonempty : c ≠ []
  notDot : c ≠ utf8 "."
  notDots : c ≠ utf8 ".."
  noSeparator : separator ∉ c

theorem isPlain_iff (c : Text) :
    IsPlain c ↔ c ≠ [] ∧ c ≠ utf8 "." ∧ c ≠ utf8 ".." ∧ separator ∉ c :=
  ⟨fun ⟨h₁, h₂, h₃, h₄⟩ => ⟨h₁, h₂, h₃, h₄⟩, fun ⟨h₁, h₂, h₃, h₄⟩ => ⟨h₁, h₂, h₃, h₄⟩⟩

instance (c : Text) : Decidable (IsPlain c) := decidable_of_iff' _ (isPlain_iff c)

/-! ## Components -/

theorem components_eq (p : Text) : components p = List.splitOn separator p :=
  Text.splitOn_singleton separator p

/-- The components on both sides of a separator. -/
theorem components_append (p q : Text) :
    components (p ++ separator :: q) = components p ++ components q := by
  simp only [components_eq, List.splitOn_append_cons_self]

theorem components_cons_separator (p : Text) :
    components (separator :: p) = [] :: components p :=
  components_append [] p

theorem components_of_not_mem {p : Text} (hp : separator ∉ p) : components p = [p] := by
  rw [components_eq, List.splitOn_eq_singleton hp]

theorem not_mem_of_mem_components {p c : Text} (hc : c ∈ components p) : separator ∉ c := by
  rw [components_eq] at hc
  exact Text.not_mem_of_mem_splitOn hc

/-- Joined components are found again. -/
theorem components_join {cs : List Text} (hcs : cs ≠ []) (h : ∀ c ∈ cs, separator ∉ c) :
    components (Text.join [separator] cs) = cs := by
  rw [components_eq, Text.join_eq_intercalate]
  exact List.splitOn_intercalate separator h hcs

/-! ## Stacks in normal form -/

/-- A stack of components, last one first: plain names, below them some `..`, and none of these in a
rooted path. -/
def IsNormal (rooted : Bool) (stack : List Text) : Prop :=
  ∃ names ups, stack = names ++ List.replicate ups (utf8 "..") ∧ (∀ c ∈ names, IsPlain c) ∧
    (rooted = true → ups = 0)

theorem push_of_isPlain {rooted : Bool} {stack : List Text} {c : Text} (hc : IsPlain c) :
    push rooted stack c = c :: stack := by
  have h₁ : (c.isEmpty || c == utf8 ".") = false := by
    simpa using ⟨hc.nonempty, hc.notDot⟩
  have h₂ : (c == utf8 "..") = false := by simpa using hc.notDots
  simp [push, h₁, h₂]

/-- Pushing a component keeps the normal form. -/
theorem push_isNormal {rooted : Bool} {stack : List Text} {c : Text} (h : IsNormal rooted stack)
    (hc : separator ∉ c) : IsNormal rooted (push rooted stack c) := by
  obtain ⟨names, ups, rfl, hnames, hups⟩ := h
  unfold push
  split
  · exact ⟨names, ups, rfl, hnames, hups⟩
  split
  · next hdots =>
    rw [beq_iff_eq] at hdots
    -- `..` takes a name away; below all names it stays, unless the path is rooted
    cases names with
    | nil =>
      cases ups with
      | zero =>
        cases rooted with
        | true => exact ⟨[], 0, rfl, hnames, fun _ => rfl⟩
        | false => exact ⟨[], 1, by simp [hdots], hnames, by simp⟩
      | succ ups =>
        have hroot : rooted = false := by
          cases rooted with
          | true => exact absurd (hups rfl) (by omega)
          | false => rfl
        refine ⟨[], ups + 2, ?_, hnames, by simp [hroot]⟩
        simp [List.replicate_succ, hdots]
    | cons top names =>
      have htop : (top == utf8 "..") = false := by
        simpa using (hnames top List.mem_cons_self).notDots
      refine ⟨names, ups, ?_, fun x hx => hnames x (List.mem_cons_of_mem top hx), hups⟩
      simp [htop]
  · next hempty hdots =>
    rw [Bool.or_eq_true, not_or, List.isEmpty_iff, beq_iff_eq] at hempty
    rw [beq_iff_eq] at hdots
    refine ⟨c :: names, ups, rfl, fun x hx => ?_, hups⟩
    rcases List.mem_cons.mp hx with rfl | hx
    · exact ⟨hempty.1, hempty.2, hdots, hc⟩
    · exact hnames x hx

theorem foldl_push_isNormal {rooted : Bool} {cs stack : List Text} (h : IsNormal rooted stack)
    (hcs : ∀ c ∈ cs, separator ∉ c) : IsNormal rooted (cs.foldl (push rooted) stack) := by
  induction cs generalizing stack with
  | nil => exact h
  | cons c cs ih =>
    exact ih (push_isNormal h (hcs c List.mem_cons_self))
      fun x hx => hcs x (List.mem_cons_of_mem c hx)

/-- The components of a cleaned path are in normal form. -/
theorem cleanComponents_isNormal (p : Text) : IsNormal (isAbs p) (cleanComponents p).reverse := by
  rw [cleanComponents, List.reverse_reverse]
  exact foldl_push_isNormal ⟨[], 0, rfl, by simp, fun _ => rfl⟩
    fun c hc => not_mem_of_mem_components hc

/-- In a relative path, steps upwards that come first all stay. -/
theorem foldl_push_replicate (ups : Nat) :
    (List.replicate ups (utf8 "..")).foldl (push false) [] = List.replicate ups (utf8 "..") := by
  induction ups with
  | zero => rfl
  | succ ups ih =>
    rw [List.replicate_succ', List.foldl_append, ih, ← List.replicate_succ', List.replicate_succ]
    cases ups with
    | zero => rfl
    | succ ups =>
      rw [List.replicate_succ]
      rfl

/-- Pushing what is in normal form gives it back. -/
theorem foldl_push_of_isNormal {rooted : Bool} {stack : List Text} (h : IsNormal rooted stack) :
    stack.reverse.foldl (push rooted) [] = stack := by
  obtain ⟨names, ups, rfl, hnames, hups⟩ := h
  have hbottom : (List.replicate ups (utf8 "..")).foldl (push rooted) [] =
      List.replicate ups (utf8 "..") := by
    cases rooted with
    | true =>
      rw [hups rfl]
      rfl
    | false => exact foldl_push_replicate ups
  -- the names come last, and each of them stays on top
  rw [List.reverse_append, List.foldl_append, List.reverse_replicate, hbottom]
  induction names with
  | nil => rfl
  | cons c names ih =>
    rw [List.reverse_cons, List.foldl_append, ih fun x hx => hnames x (List.mem_cons_of_mem c hx)]
    exact push_of_isPlain (hnames c List.mem_cons_self)

/-- The components of a cleaned path have no separator in them, and none is empty. -/
theorem not_mem_of_mem_cleanComponents {p c : Text} (hc : c ∈ cleanComponents p) :
    separator ∉ c ∧ c ≠ [] := by
  obtain ⟨names, ups, hstack, hnames, -⟩ := cleanComponents_isNormal p
  have hmem : c ∈ names ++ List.replicate ups (utf8 "..") := by
    rw [← hstack, List.mem_reverse]
    exact hc
  rcases List.mem_append.mp hmem with h | h
  · exact ⟨(hnames c h).noSeparator, (hnames c h).nonempty⟩
  · rw [(List.mem_replicate.mp h).2]
    decide

/-! ## Cleaning -/

theorem join_ne_nil {cs : List Text} (hcs : cs ≠ []) (h : ∀ c ∈ cs, c ≠ []) :
    Text.join [separator] cs ≠ [] := by
  cases cs with
  | nil => exact absurd rfl hcs
  | cons c cs =>
    have hc := h c List.mem_cons_self
    cases cs with
    | nil => exact hc
    | cons d cs => simp [Text.join]

/-- The three forms of a cleaned path. -/
theorem clean_eq (p : Text) : clean p =
    if isAbs p then separator :: Text.join [separator] (cleanComponents p)
    else if cleanComponents p = [] then utf8 "."
    else Text.join [separator] (cleanComponents p) := by
  unfold clean
  by_cases habs : isAbs p = true
  · simp [habs]
  · by_cases hcs : cleanComponents p = []
    · simp [habs, hcs, Text.join]
    · have := join_ne_nil hcs fun c hc => (not_mem_of_mem_cleanComponents hc).2
      simp [habs, hcs, this]

theorem isAbs_append {p : Text} (hp : p ≠ []) (q : Text) : isAbs (p ++ q) = isAbs p := by
  cases p with
  | nil => exact absurd rfl hp
  | cons b p => rfl

theorem isAbs_of_not_mem {p : Text} (hp : separator ∉ p) : isAbs p = false := by
  cases p with
  | nil => rfl
  | cons b p =>
    rw [List.mem_cons, not_or] at hp
    simpa [isAbs] using fun h => hp.1 h.symm

/-- A plain name added to a path is the last component of the cleaned path. -/
theorem cleanComponents_append {p c : Text} (hp : p ≠ []) (hc : IsPlain c) :
    cleanComponents (p ++ separator :: c) = cleanComponents p ++ [c] := by
  rw [cleanComponents, components_append, isAbs_append hp, components_of_not_mem hc.noSeparator,
    List.foldl_append, List.foldl_cons, List.foldl_nil, push_of_isPlain hc, List.reverse_cons]
  rfl

theorem cleanComponents_of_isPlain {c : Text} (hc : IsPlain c) : cleanComponents c = [c] := by
  rw [cleanComponents, components_of_not_mem hc.noSeparator, List.foldl_cons, List.foldl_nil,
    push_of_isPlain hc]
  rfl

/-- Cleaning keeps a path absolute or relative. -/
theorem isAbs_clean (p : Text) : isAbs (clean p) = isAbs p := by
  rw [clean_eq]
  cases habs : isAbs p with
  | true => rfl
  | false =>
    rw [if_neg (by simp)]
    split
    · rfl
    · next hcs =>
      cases h : cleanComponents p with
      | nil => exact absurd h hcs
      | cons c cs =>
        obtain ⟨hsep, hne⟩ := not_mem_of_mem_cleanComponents (p := p) (c := c)
          (by rw [h]; exact List.mem_cons_self)
        cases cs with
        | nil => exact isAbs_of_not_mem hsep
        | cons d cs =>
          rw [Text.join, List.append_assoc, isAbs_append hne]
          exact isAbs_of_not_mem hsep

/-- Reading the cleaned path again pushes the components of its normal form. -/
theorem foldl_push_components_clean (p : Text) :
    (components (clean p)).foldl (push (isAbs p)) [] =
      (cleanComponents p).foldl (push (isAbs p)) [] := by
  have hjoin (hcs : cleanComponents p ≠ []) :
      components (Text.join [separator] (cleanComponents p)) = cleanComponents p :=
    components_join hcs fun c hc => (not_mem_of_mem_cleanComponents hc).1
  rw [clean_eq]
  by_cases hcs : cleanComponents p = []
  · cases habs : isAbs p with
    | true =>
      rw [hcs]
      rfl
    | false =>
      rw [hcs]
      rfl
  · cases habs : isAbs p with
    | true =>
      rw [if_pos rfl, components_cons_separator, hjoin hcs]
      rfl
    | false => rw [if_neg (by simp), if_neg hcs, hjoin hcs]

/-- Cleaning a clean path leaves its components as they are. -/
theorem cleanComponents_clean (p : Text) : cleanComponents (clean p) = cleanComponents p := by
  have hnormal := foldl_push_of_isNormal (cleanComponents_isNormal p)
  rw [List.reverse_reverse] at hnormal
  rw [cleanComponents, isAbs_clean, foldl_push_components_clean, hnormal, List.reverse_reverse]

/-- A joined path ends as its last component does. -/
theorem getLast?_join {cs : List Text} {c : Text} (hc : c ≠ []) :
    (Text.join [separator] (cs ++ [c])).getLast? = c.getLast? := by
  induction cs with
  | nil => rfl
  | cons d cs ih =>
    have hne : Text.join [separator] (cs ++ [c]) ≠ [] := by
      cases cs with
      | nil => exact hc
      | cons e cs => cases cs <;> simp [Text.join]
    have hcons : Text.join [separator] (d :: (cs ++ [c])) =
        d ++ [separator] ++ Text.join [separator] (cs ++ [c]) := by
      cases cs <;> rfl
    rw [List.cons_append, hcons, List.getLast?_append, ih]
    have : c.getLast?.isSome := by simpa using hc
    rw [Option.or_of_isSome this]

/-- A cleaned path ends with a separator only if it is the root. -/
theorem getLast?_join_cleanComponents {p : Text} (hcs : cleanComponents p ≠ []) :
    (Text.join [separator] (cleanComponents p)).getLast? ≠ some separator := by
  obtain ⟨cs, c, heq⟩ : ∃ cs c, cleanComponents p = cs ++ [c] :=
    ⟨_, _, (List.dropLast_concat_getLast hcs).symm⟩
  obtain ⟨hsep, hne⟩ := not_mem_of_mem_cleanComponents (p := p) (c := c) (by simp [heq])
  rw [heq, getLast?_join hne]
  exact fun h => hsep (List.mem_of_getLast? h)

/-- A plain name is joined to the components of the cleaned directory. -/
theorem join_eq (dir : Text) {c : Text} (hc : IsPlain c) :
    join [dir, c] =
      if isAbs dir then separator :: Text.join [separator] (cleanComponents dir ++ [c])
      else Text.join [separator] (cleanComponents dir ++ [c]) := by
  by_cases hdir : dir = []
  · subst hdir
    have hjoin : join [[], c] = clean c := by simp [join, hc.nonempty, Text.join]
    rw [hjoin, clean_eq, isAbs_of_not_mem hc.noSeparator, cleanComponents_of_isPlain hc]
    rfl
  · have hjoin : join [dir, c] = clean (dir ++ separator :: c) := by
      simp [join, hdir, hc.nonempty, Text.join]
    have hcs : cleanComponents dir ++ [c] ≠ [] := by simp
    rw [hjoin, clean_eq, isAbs_append hdir, cleanComponents_append hdir hc, if_neg hcs]

/-- The path of an entry is the same for the cleaned path of its directory. -/
theorem join_clean (dir : Text) {c : Text} (hc : IsPlain c) :
    join [clean dir, c] = join [dir, c] := by
  rw [join_eq _ hc, join_eq _ hc, isAbs_clean, cleanComponents_clean]

/-- The path of an entry of a directory: with `.` and the root nothing stands between. -/
theorem join_entry (dir : Text) {c : Text} (hc : IsPlain c) :
    (clean dir = utf8 "." ∧ join [dir, c] = c) ∨
    (clean dir = [separator] ∧ join [dir, c] = separator :: c) ∨
    (clean dir ≠ [] ∧ (clean dir).getLast? ≠ some separator ∧
      join [dir, c] = clean dir ++ separator :: c) := by
  rw [join_eq dir hc, clean_eq dir]
  by_cases hcs : cleanComponents dir = []
  · cases habs : isAbs dir with
    | true =>
      right; left
      rw [hcs]
      exact ⟨rfl, rfl⟩
    | false =>
      left
      rw [hcs]
      exact ⟨rfl, rfl⟩
  · have hlast := getLast?_join_cleanComponents hcs
    have hne := join_ne_nil hcs fun c hc => (not_mem_of_mem_cleanComponents hc).2
    right; right
    rw [Text.join_concat hcs]
    cases habs : isAbs dir with
    | true =>
      refine ⟨List.cons_ne_nil _ _, ?_, rfl⟩
      rw [if_pos rfl, List.getLast?_cons_of_ne_nil hne]
      exact hlast
    | false =>
      simp only [Bool.false_eq_true, ↓reduceIte, if_neg hcs]
      exact ⟨hne, hlast, rfl⟩

/-! ## The last component -/

theorem forall_reverse_ne_separator {c : Text} (hc : separator ∉ c) :
    ∀ b ∈ c.reverse, decide (b ≠ separator) = true := by
  intro b hb
  rw [List.mem_reverse] at hb
  exact decide_eq_true fun h => hc (h ▸ hb)

/-- What stands behind the last separator. -/
theorem reverse_takeWhile_append (p : Text) {c : Text} (hc : separator ∉ c) :
    ((p ++ separator :: c).reverse.takeWhile (· ≠ separator)).reverse = c := by
  rw [List.reverse_append, List.reverse_cons, List.append_assoc,
    List.takeWhile_append_of_pos (forall_reverse_ne_separator hc)]
  simp

theorem reverse_takeWhile_of_not_mem {c : Text} (hc : separator ∉ c) :
    (c.reverse.takeWhile (· ≠ separator)).reverse = c := by
  have happend : (c.reverse ++ []).takeWhile (· ≠ separator) = c.reverse ++ [] :=
    List.takeWhile_append_of_pos (forall_reverse_ne_separator hc)
  rw [List.append_nil] at happend
  rw [happend, List.reverse_reverse]

/-- A path is split behind its last separator. -/
theorem split_append (p : Text) {c : Text} (hc : separator ∉ c) :
    split (p ++ separator :: c) = (p ++ [separator], c) := by
  unfold split
  rw [reverse_takeWhile_append p hc]
  have hlength : (p ++ separator :: c).length - c.length = (p ++ [separator]).length := by
    simp; omega
  have happend : p ++ separator :: c = (p ++ [separator]) ++ c := by simp
  simp only [hlength]
  rw [happend, List.take_left]

/-- A path without a separator is a name in no directory. -/
theorem split_of_not_mem {c : Text} (hc : separator ∉ c) : split c = ([], c) := by
  unfold split
  rw [reverse_takeWhile_of_not_mem hc]
  simp

/-- Unless a path is empty or ends with a separator, its base is what stands behind the last one. -/
theorem base_eq_split {p : Text} (hp : p ≠ []) (hlast : p.getLast? ≠ some separator) :
    base p = (split p).2 := by
  have htrim : (p.reverse.dropWhile (· == separator)).reverse = p := by
    rw [← List.head?_reverse] at hlast
    cases h : p.reverse with
    | nil => simp_all
    | cons b q =>
      rw [h] at hlast
      have hb : (b == separator) = false := by simpa using hlast
      rw [List.dropWhile_cons, hb]
      rw [← List.reverse_reverse p, h]
      rfl
  unfold base
  simp only [htrim, List.isEmpty_iff, hp, ↓reduceIte]

theorem getLast?_of_isPlain {c : Text} (hc : IsPlain c) : c.getLast? ≠ some separator :=
  fun h => hc.noSeparator (List.mem_of_getLast? h)

theorem getLast?_append_of_isPlain (p : Text) {c : Text} (hc : IsPlain c) :
    (p ++ separator :: c).getLast? ≠ some separator := by
  have hsome : c.getLast?.isSome := by simpa using hc.nonempty
  rw [List.getLast?_append, List.getLast?_cons_of_ne_nil hc.nonempty, Option.or_of_isSome hsome]
  exact getLast?_of_isPlain hc

theorem base_append (p : Text) {c : Text} (hc : IsPlain c) : base (p ++ separator :: c) = c := by
  rw [base_eq_split (by simp) (getLast?_append_of_isPlain p hc), split_append p hc.noSeparator]

theorem base_of_isPlain {c : Text} (hc : IsPlain c) : base c = c := by
  rw [base_eq_split hc.nonempty (getLast?_of_isPlain hc), split_of_not_mem hc.noSeparator]

/-- The last component of the path of an entry is the entry's name. -/
theorem base_join (dir : Text) {c : Text} (hc : IsPlain c) : base (join [dir, c]) = c := by
  rcases join_entry dir hc with ⟨-, h⟩ | ⟨-, h⟩ | ⟨-, -, h⟩
  · rw [h, base_of_isPlain hc]
  · rw [h]
    exact base_append [] hc
  · rw [h, base_append _ hc]

end CaseCover.Path
