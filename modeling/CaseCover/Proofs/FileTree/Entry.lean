import CaseCover.FileTree
import CaseCover.Proofs.Path.Clean

/-!
# Entries of directories

A path that leads to a directory, with the name of an entry added, leads to that entry
(`find_join_entry`): the walk to the directory is the same, over the same links, and one step
follows it. The path of the entry is the cleaned one, so the directory is the one at the cleaned
path.
-/

namespace CaseCover

/-- A name that an entry of a directory can have. -/
structure IsEntryName (c : Text) : Prop extends Path.IsPlain c where
  short : c.length ≤ 255
  noZero : 0 ∉ c

theorem isEntryName_iff (c : Text) :
    IsEntryName c ↔ Path.IsPlain c ∧ c.length ≤ 255 ∧ 0 ∉ c :=
  ⟨fun ⟨hplain, hshort, hzero⟩ => ⟨hplain, hshort, hzero⟩,
    fun ⟨hplain, hshort, hzero⟩ => ⟨hplain, hshort, hzero⟩⟩

instance (c : Text) : Decidable (IsEntryName c) := decidable_of_iff' _ (isEntryName_iff c)

namespace FileNode

/-- One more name leads to a child of what the others lead to. -/
theorem below?_append (n : FileNode) (cs : List Text) (c : Text) :
    n.below? (cs ++ [c]) = (n.below? cs).bind fun m => m.child? c := by
  induction cs generalizing n with
  | nil => simp [below?]
  | cons d cs ih =>
    rw [List.cons_append, below?, below?]
    cases n.child? d with
    | none => rfl
    | some m => exact ih m

end FileNode

namespace FileTree

variable {root : FileNode} {place q : List Text} {c content : Text}
  {es : List (Text × FileNode)}

/-! ## Walks between links -/

/-- A dot stays in the directory. -/
theorem descend_dot (hplace : root.below? place.reverse = some (.dir es)) (follow : Bool)
    (todo : List Text) :
    descend root follow place (utf8 "." :: todo) = descend root follow place todo := by
  have hshort : ¬ 255 < (utf8 ".").length := by decide
  have hzero : ¬ (utf8 ".").contains 0 = true := by decide
  rw [descend, hplace]
  simp only [if_neg hshort, if_neg hzero, beq_self_eq_true, ↓reduceIte]

/-- The entry of a directory is one step away. -/
theorem descend_entry (hplace : root.below? place.reverse = some (.dir es)) (hc : IsEntryName c)
    (hentry : es.lookup c = some (.file content)) :
    descend root true place [c] = .ok (.node (c :: place) (.file content)) := by
  have hbelow : root.below? (c :: place).reverse = some (.file content) := by
    rw [List.reverse_cons, FileNode.below?_append, hplace]
    exact hentry
  have hshort : ¬ 255 < c.length := Nat.not_lt.mpr hc.short
  have hzero : ¬ c.contains 0 = true := by simpa using hc.noZero
  have hdot : ¬ (c == utf8 ".") = true := by simpa using hc.notDot
  have hdots : ¬ (c == utf8 "..") = true := by simpa using hc.notDots
  rw [descend, hplace]
  simp only [if_neg hshort, if_neg hzero, if_neg hdot, if_neg hdots, hentry, descend, hbelow]

/-- From a directory, one more name leads to a file in it. -/
theorem descend_append_entry {todo : List Text}
    (h : descend root true place todo = .ok (.node q (.dir es))) (hc : IsEntryName c)
    (hentry : es.lookup c = some (.file content)) :
    descend root true place (todo ++ [c]) = .ok (.node (c :: q) (.file content)) := by
  fun_induction descend root true place todo with
  | case1 place m hm =>
    cases h
    exact descend_entry hm hc hentry
  | _ => simp_all [descend]

/-- What follows a link waits until the link is resolved. -/
theorem descend_append_link {todo rest more : List Text} {target : Text}
    (h : descend root true place todo = .ok (.link q target rest)) :
    descend root true place (todo ++ more) = .ok (.link q target (rest ++ more)) := by
  fun_induction descend root true place todo with
  | _ => simp_all [descend]

/-! ## Walks over links -/

/-- A walk over links that ends in a directory goes on to a file in it. -/
theorem walkFrom_append_entry {links : Nat} {todo : List Text}
    (h : walkFrom root true links place todo = .ok (q, .dir es)) (hc : IsEntryName c)
    (hentry : es.lookup c = some (.file content)) :
    walkFrom root true links place (todo ++ [c]) = .ok (c :: q, .file content) := by
  induction links generalizing place todo with
  | zero => cases h
  | succ links ih =>
    rw [walkFrom] at h ⊢
    cases hreached : descend root true place todo with
    | error e =>
      rw [hreached] at h
      cases h
    | ok reached =>
      rw [hreached] at h
      cases reached with
      | node place' n =>
        cases h
        rw [descend_append_entry hreached hc hentry]
        rfl
      | link place' target rest =>
        rw [descend_append_link hreached]
        have hnext := ih h
        rw [List.append_assoc] at hnext
        exact hnext

theorem walkFrom_dot {links : Nat} {n : FileNode}
    (h : walkFrom root true links place [utf8 "."] = .ok (q, n)) (todo : List Text) :
    walkFrom root true links place (utf8 "." :: todo) = walkFrom root true links place todo := by
  cases links with
  | zero => rfl
  | succ links =>
    rw [walkFrom, descend] at h
    rw [walkFrom, walkFrom]
    cases hplace : root.below? place.reverse with
    | none =>
      rw [hplace] at h
      cases h
    | some m =>
      cases m with
      | dir es => rw [descend_dot hplace]
      | file content =>
        rw [hplace] at h
        cases h
      | link target =>
        rw [hplace] at h
        cases h

/-! ## Paths of entries -/

/-- A path that does not end with a separator has its components as steps, except for empty ones. -/
theorem steps_of_getLast? {p : Text} (hp : p.getLast? ≠ some Path.separator) :
    steps p = (Path.components p).filter fun d => !d.isEmpty := by
  have hlast : ¬ (p.getLast? == some Path.separator) = true := by simpa using hp
  rw [steps, if_neg hlast]

theorem filter_entry (hc : IsEntryName c) : [c].filter (fun d => !d.isEmpty) = [c] := by
  simp [hc.nonempty]

theorem steps_append (p : Text) (hc : IsEntryName c) :
    steps (p ++ Path.separator :: c) =
      (Path.components p).filter (fun d => !d.isEmpty) ++ [c] := by
  rw [steps_of_getLast? (Path.getLast?_append_of_isPlain p hc.toIsPlain), Path.components_append,
    Path.components_of_not_mem hc.noSeparator, List.filter_append, filter_entry hc]

theorem steps_entry (hc : IsEntryName c) : steps c = [c] := by
  rw [steps_of_getLast? (Path.getLast?_of_isPlain hc.toIsPlain),
    Path.components_of_not_mem hc.noSeparator, filter_entry hc]

/-- The path of an entry leads to the entry of the directory at the cleaned path. -/
theorem find_join_entry {t : FileTree} {dir : Text}
    (hdir : t.find true (Path.clean dir) = .ok (q, .dir es)) (hc : IsEntryName c)
    (hentry : es.lookup c = some (.file content)) :
    t.find true (Path.join [dir, c]) = .ok (c :: q, .file content) := by
  have hne : c.isEmpty = false := by simpa using hc.nonempty
  rcases Path.join_entry dir hc.toIsPlain with ⟨hclean, hjoin⟩ | ⟨hclean, hjoin⟩ |
    ⟨hnil, hlast, hjoin⟩
  · rw [hclean] at hdir
    have hwalk : walkFrom t.root true 41 (steps t.cwd).reverse [utf8 "."] = .ok (q, .dir es) := hdir
    rw [hjoin, find, hne, Path.isAbs_of_not_mem hc.noSeparator, steps_entry hc]
    simp only [Bool.false_eq_true, ↓reduceIte]
    rw [← walkFrom_dot hwalk]
    exact walkFrom_append_entry hwalk hc hentry
  · rw [hclean] at hdir
    have hwalk : walkFrom t.root true 41 [] [utf8 "."] = .ok (q, .dir es) := hdir
    have hsteps : steps (Path.separator :: c) = [c] := steps_append [] hc
    have habs : Path.isAbs (Path.separator :: c) = true := rfl
    rw [hjoin, find, habs, hsteps]
    simp only [List.isEmpty_cons, Bool.false_eq_true, ↓reduceIte]
    rw [← walkFrom_dot hwalk]
    exact walkFrom_append_entry hwalk hc hentry
  · have hempty : (Path.clean dir).isEmpty = false := by simpa using hnil
    have hempty' : (Path.clean dir ++ Path.separator :: c).isEmpty = false := by simp
    rw [find, hempty, steps_of_getLast? hlast] at hdir
    rw [hjoin, find, hempty', steps_append _ hc, Path.isAbs_append hnil]
    simp only [Bool.false_eq_true, ↓reduceIte] at hdir ⊢
    split at hdir
    · next habs =>
      rw [if_pos habs]
      exact walkFrom_append_entry hdir hc hentry
    · next habs =>
      rw [if_neg habs]
      exact walkFrom_append_entry hdir hc hentry

end FileTree

end CaseCover
