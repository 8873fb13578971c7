import CaseCover.Proofs.Path.Clean

/-!
# Paths below a root

Names added to a root, one after the other or all at once, end up as the last components of the
cleaned path (`cleanComponents_foldl_join`, `cleanComponents_textJoin`). So different names give
different paths (`join_cons_inj`). The directory part of the path of an entry is the cleaned path of
its directory (`dir_join`), and its extension is that of the entry's name (`ext_join`).
-/

namespace CaseCover.Path

variable {c dir root : Text} {names : List Text}

/-- What a path is cleaned to depends on its root and its normal form only. -/
theorem clean_congr {p q : Text} (habs : isAbs p = isAbs q)
    (hcs : cleanComponents p = cleanComponents q) : clean p = clean q := by
  rw [clean_eq, clean_eq, habs, hcs]

/-- Cleaning twice is cleaning once. -/
theorem clean_clean (p : Text) : clean (clean p) = clean p :=
  clean_congr (isAbs_clean p) (cleanComponents_clean p)

theorem clean_append_separator {p : Text} (hp : p ≠ []) : clean (p ++ [separator]) = clean p := by
  refine clean_congr (isAbs_append hp _) ?_
  have hcomponents : components (p ++ [separator]) = components p ++ [[]] := components_append p []
  rw [cleanComponents, hcomponents, isAbs_append hp, List.foldl_append]
  rfl

/-! ## One name -/

theorem join_entry_eq (hdir : dir ≠ []) (hc : IsPlain c) :
    join [dir, c] = clean (dir ++ separator :: c) := by
  simp [join, hdir, hc.nonempty, Text.join]

/-- The path of an entry is absolute exactly if that of its directory is. -/
theorem isAbs_join_entry (hdir : dir ≠ []) (hc : IsPlain c) :
    isAbs (join [dir, c]) = isAbs dir := by
  rw [join_entry_eq hdir hc, isAbs_clean, isAbs_append hdir]

/-- An entry adds one component. -/
theorem cleanComponents_join_entry (hdir : dir ≠ []) (hc : IsPlain c) :
    cleanComponents (join [dir, c]) = cleanComponents dir ++ [c] := by
  rw [join_entry_eq hdir hc, cleanComponents_clean, cleanComponents_append hdir hc]

theorem join_entry_ne_nil (dir : Text) (hc : IsPlain c) : join [dir, c] ≠ [] := by
  rcases join_entry dir hc with ⟨-, hjoin⟩ | ⟨-, hjoin⟩ | ⟨-, -, hjoin⟩
  · rw [hjoin]
    exact hc.nonempty
  · simp [hjoin]
  · simp [hjoin]

/-- The path of an entry is cut before the name of the entry. -/
theorem split_join (dir : Text) (hc : IsPlain c) :
    (split (join [dir, c])).2 = c ∧ clean (split (join [dir, c])).1 = clean dir := by
  rcases join_entry dir hc with ⟨hclean, hjoin⟩ | ⟨hclean, hjoin⟩ | ⟨hne, -, hjoin⟩
  · rw [hjoin, split_of_not_mem hc.noSeparator, hclean]
    exact ⟨rfl, rfl⟩
  · have hsplit : split (separator :: c) = ([separator], c) := split_append [] hc.noSeparator
    rw [hjoin, hsplit, hclean]
    exact ⟨rfl, rfl⟩
  · rw [hjoin, split_append _ hc.noSeparator]
    exact ⟨rfl, by rw [clean_append_separator hne, clean_clean]⟩

/-- The directory part of the path of an entry is the cleaned path of its directory. -/
theorem dir_join (dir : Text) (hc : IsPlain c) : Path.dir (join [dir, c]) = clean dir :=
  (split_join dir hc).2

theorem ext_join (dir : Text) (hc : IsPlain c) : ext (join [dir, c]) = ext c := by
  rw [ext, (split_join dir hc).1, ext, split_of_not_mem hc.noSeparator]

/-- The extension of a name is what stands from its last dot on. -/
theorem ext_append_dot (front : Text) {back : Text} (h : separator ∉ front ++ 0x2E :: back)
    (hback : 0x2E ∉ back) : ext (front ++ 0x2E :: back) = 0x2E :: back := by
  have hend : ∀ b ∈ back.reverse, decide (b ≠ 0x2E) = true := by
    intro b hb
    exact decide_eq_true fun hdot => hback (List.mem_reverse.mp (hdot ▸ hb))
  have hdot : (front ++ 0x2E :: back).contains 0x2E = true := by simp
  rw [ext, split_of_not_mem h, if_pos hdot, List.reverse_append, List.reverse_cons,
    List.append_assoc, List.takeWhile_append_of_pos hend]
  simp

/-- A name without a dot in the end has an extension exactly if it ends in a dot and that end. -/
theorem ext_eq_iff (hc : separator ∉ c) {back : Text} (hback : 0x2E ∉ back) :
    ext c = 0x2E :: back ↔ 0x2E :: back <:+ c := by
  constructor
  · intro h
    have hdot : 0x2E ∈ c.reverse := by
      rw [List.mem_reverse, ← List.contains_iff_mem]
      refine Decidable.byContradiction fun hnone => ?_
      rw [ext, split_of_not_mem hc, if_neg hnone] at h
      cases h
    obtain ⟨last, front, hcut, hlast⟩ := List.eq_append_cons_of_mem hdot
    have heq : c = front.reverse ++ 0x2E :: last.reverse := by
      rw [← List.reverse_reverse c, hcut]
      simp
    rw [heq] at hc
    rw [heq, ext_append_dot _ hc (by simpa using hlast)] at h
    exact ⟨front.reverse, by rw [heq, h]⟩
  · rintro ⟨front, rfl⟩
    exact ext_append_dot front hc hback

/-! ## Several names -/

/-- Names are added to a path one after the other. -/
theorem cleanComponents_foldl_join (hroot : root ≠ []) (hnames : ∀ c ∈ names, IsPlain c) :
    isAbs (names.foldl (fun p c => join [p, c]) root) = isAbs root ∧
      cleanComponents (names.foldl (fun p c => join [p, c]) root) =
        cleanComponents root ++ names := by
  induction names generalizing root with
  | nil => simp
  | cons c names ih =>
    obtain ⟨hc, hnames⟩ := List.forall_mem_cons.mp hnames
    obtain ⟨habs, hcs⟩ := ih (join_entry_ne_nil root hc) hnames
    rw [List.foldl_cons, habs, hcs, isAbs_join_entry hroot hc, cleanComponents_join_entry hroot hc]
    simp

theorem foldl_push_of_isPlain {rooted : Bool} {stack : List Text}
    (hnames : ∀ c ∈ names, IsPlain c) :
    names.foldl (push rooted) stack = names.reverse ++ stack := by
  induction names generalizing stack with
  | nil => rfl
  | cons c names ih =>
    obtain ⟨hc, hnames⟩ := List.forall_mem_cons.mp hnames
    rw [List.foldl_cons, push_of_isPlain hc, ih hnames, List.reverse_cons]
    simp

theorem components_join_cons (root : Text) (hnames : ∀ c ∈ names, IsPlain c) :
    components (Text.join [separator] (root :: names)) = components root ++ names := by
  cases names with
  | nil => simp [Text.join]
  | cons c names =>
    have hjoin : Text.join [separator] (root :: c :: names) =
        root ++ separator :: Text.join [separator] (c :: names) := by simp [Text.join]
    rw [hjoin, components_append,
      components_join (List.cons_ne_nil _ _) fun d hd => (hnames d hd).noSeparator]

theorem isAbs_join_cons (hroot : root ≠ []) (names : List Text) :
    isAbs (Text.join [separator] (root :: names)) = isAbs root := by
  cases names with
  | nil => rfl
  | cons c names => rw [Text.join, List.append_assoc, isAbs_append hroot]

/-- Plain names stay in the normal form. -/
theorem cleanComponents_textJoin (hroot : root ≠ []) (hnames : ∀ c ∈ names, IsPlain c) :
    cleanComponents (Text.join [separator] (root :: names)) = cleanComponents root ++ names := by
  rw [cleanComponents, components_join_cons root hnames, isAbs_join_cons hroot, List.foldl_append,
    foldl_push_of_isPlain hnames, List.reverse_append, List.reverse_reverse]
  rfl

/-- Joining names to a root puts each of them behind a separator. -/
theorem join_cons_eq (hroot : root ≠ []) (hnames : ∀ c ∈ names, IsPlain c) :
    join (root :: names) = clean (Text.join [separator] (root :: names)) := by
  have hused : ∀ c ∈ root :: names, (!c.isEmpty) = true := by
    simpa using ⟨hroot, fun c hc => (hnames c hc).nonempty⟩
  rw [join, List.filter_eq_self.mpr hused]
  rfl

/-- For the cleaned path it makes no difference whether names are added one by one or at once. -/
theorem clean_foldl_join (hroot : root ≠ []) (hnames : ∀ c ∈ names, IsPlain c) :
    clean (names.foldl (fun p c => join [p, c]) root) = join (root :: names) := by
  obtain ⟨habs, hcs⟩ := cleanComponents_foldl_join hroot hnames
  rw [join_cons_eq hroot hnames]
  exact clean_congr (habs.trans (isAbs_join_cons hroot names).symm)
    (hcs.trans (cleanComponents_textJoin hroot hnames).symm)

/-- Different names lead to different paths. -/
theorem join_cons_inj (hroot : root ≠ []) {names' : List Text} (hnames : ∀ c ∈ names, IsPlain c)
    (hnames' : ∀ c ∈ names', IsPlain c) (h : join (root :: names) = join (root :: names')) :
    names = names' := by
  have hcs := congrArg cleanComponents h
  rw [join_cons_eq hroot hnames, join_cons_eq hroot hnames', cleanComponents_clean,
    cleanComponents_clean, cleanComponents_textJoin hroot hnames,
    cleanComponents_textJoin hroot hnames'] at hcs
  exact List.append_cancel_left hcs

end CaseCover.Path
