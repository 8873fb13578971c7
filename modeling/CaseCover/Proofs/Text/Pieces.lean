import CaseCover.Text

/-!
# Pieces of a text

A text is cut at a separator of several bytes, from the left. If the first byte of the separator
does not come again in it, two separators never overlap, and one that stands between two texts is
found there (`splitOn_append`). So the pieces of a joined text are the pieces of its parts
(`splitOn_join`), and these are the parts themselves exactly if no part holds the separator
(`splitOn_join_eq_self`, `length_splitOn_join_eq_iff`).
-/

namespace CaseCover.Text

variable {first : UInt8} {more : Text}

/-- The bytes of a separator that was found are passed over. -/
theorem splitFrom_length_append (sep piece p t : Text) :
    splitFrom sep p.length piece (p ++ t) = splitFrom sep 0 piece t := by
  induction p with
  | nil => rfl
  | cons b p ih => exact ih

theorem splitFrom_ne_nil (sep : Text) (skip : Nat) (piece t : Text) :
    splitFrom sep skip piece t ≠ [] := by
  induction t generalizing skip piece with
  | nil => simp [splitFrom]
  | cons b t ih =>
    cases skip with
    | succ skip => exact ih skip piece
    | zero =>
      rw [splitFrom]
      split
      · exact List.cons_ne_nil _ _
      · exact ih 0 (b :: piece)

theorem splitOn_ne_nil (sep t : Text) : splitOn sep t ≠ [] := splitFrom_ne_nil sep 0 [] t

/-- The text before the first piece ends up in the first piece. -/
theorem splitFrom_of_not_infix {sep t : Text} (h : ¬ sep <:+: t) (piece : Text) :
    splitFrom sep 0 piece t = [piece.reverse ++ t] := by
  induction t generalizing piece with
  | nil => simp [splitFrom]
  | cons b t ih =>
    have hprefix : ¬ sep.isPrefixOf (b :: t) = true := fun hp =>
      h (List.isPrefixOf_iff_prefix.mp hp).isInfix
    rw [splitFrom, if_neg hprefix, ih fun ht => h (ht.trans (List.suffix_cons b t).isInfix)]
    simp

section

variable (hmore : first ∉ more)
include hmore

/-- A separator that starts in a text and not in the one behind it lies in that text. -/
theorem prefix_of_prefix_append {b : UInt8} {p q : Text}
    (h : first :: more <+: b :: p ++ (first :: more ++ q)) : first :: more <+: b :: p := by
  rcases List.prefix_or_prefix_of_prefix h (List.prefix_append (b :: p) _) with hin | hover
  · exact hin
  · obtain ⟨rest, hrest⟩ := hover
    have hafter : rest <+: first :: more ++ q := by
      rw [← hrest] at h
      exact (List.prefix_append_right_inj (b :: p)).mp (hrest ▸ h)
    cases rest with
    | nil => simp [← hrest]
    | cons c rest =>
      -- what is left of the separator would start with its first byte again
      rw [List.cons_append, List.cons.injEq] at hrest
      have hc : c = first := (List.cons_prefix_cons.mp hafter).1
      exact absurd (by rw [← hrest.2, hc]; simp) hmore

theorem splitFrom_append {skip : Nat} {p : Text} (hskip : skip ≤ p.length) (piece q : Text) :
    splitFrom (first :: more) skip piece (p ++ (first :: more ++ q)) =
      splitFrom (first :: more) skip piece p ++ splitOn (first :: more) q := by
  induction p generalizing skip piece with
  | nil =>
    obtain rfl : skip = 0 := Nat.le_zero.mp hskip
    have hprefix : (first :: more).isPrefixOf (first :: (more ++ q)) = true :=
      List.isPrefixOf_iff_prefix.mpr (List.prefix_append (first :: more) q)
    rw [List.nil_append, List.cons_append, splitFrom, splitFrom, if_pos hprefix]
    exact congrArg _ (splitFrom_length_append _ [] more q)
  | cons b p ih =>
    cases skip with
    | succ skip => exact ih (Nat.le_of_succ_le_succ hskip) piece
    | zero =>
      by_cases hprefix : first :: more <+: b :: p
      · have hlength : more.length ≤ p.length := Nat.le_of_succ_le_succ hprefix.length_le
        have hlong : first :: more <+: b :: (p ++ (first :: more ++ q)) :=
          hprefix.trans (List.prefix_append (b :: p) _)
        rw [List.cons_append, splitFrom, splitFrom, if_pos (List.isPrefixOf_iff_prefix.mpr hprefix),
          if_pos (List.isPrefixOf_iff_prefix.mpr hlong)]
        exact congrArg _ (ih hlength [])
      · have hlong : ¬ first :: more <+: b :: (p ++ (first :: more ++ q)) :=
          mt (prefix_of_prefix_append hmore) hprefix
        rw [List.cons_append, splitFrom, splitFrom,
          if_neg (mt List.isPrefixOf_iff_prefix.mp hprefix),
          if_neg (mt List.isPrefixOf_iff_prefix.mp hlong)]
        exact ih (Nat.zero_le _) (b :: piece)

/-- A text is cut at a separator in it, and its parts are cut on their own. -/
theorem splitOn_append (p q : Text) :
    splitOn (first :: more) (p ++ (first :: more ++ q)) =
      splitOn (first :: more) p ++ splitOn (first :: more) q :=
  splitFrom_append hmore (Nat.zero_le _) [] q

theorem length_splitOn_eq_one_iff {p : Text} :
    (splitOn (first :: more) p).length = 1 ↔ ¬ first :: more <:+: p := by
  constructor
  · rintro hlength ⟨front, back, rfl⟩
    have hfront := List.length_pos_iff.mpr (splitOn_ne_nil (first :: more) front)
    have hback := List.length_pos_iff.mpr (splitOn_ne_nil (first :: more) back)
    rw [List.append_assoc, splitOn_append hmore, List.length_append] at hlength
    omega
  · intro h
    rw [splitOn, splitFrom_of_not_infix h]
    rfl

/-- The pieces of a joined text are the pieces of its parts. -/
theorem splitOn_join {ps : List Text} (hps : ps ≠ []) :
    splitOn (first :: more) (join (first :: more) ps) = ps.flatMap (splitOn (first :: more)) := by
  induction ps with
  | nil => exact absurd rfl hps
  | cons p ps ih =>
    cases ps with
    | nil => simp [join]
    | cons q ps =>
      rw [join, List.append_assoc, splitOn_append hmore, ih (List.cons_ne_nil q ps),
        List.flatMap_cons, List.flatMap_cons, List.flatMap_cons]

/-- There is at least one piece for each part, and no more only if no part holds the separator. -/
theorem length_flatMap_splitOn_eq_iff (ps : List Text) :
    ps.length ≤ (ps.flatMap (splitOn (first :: more))).length ∧
      ((ps.flatMap (splitOn (first :: more))).length = ps.length ↔
        ∀ p ∈ ps, ¬ first :: more <:+: p) := by
  induction ps with
  | nil => simp
  | cons p ps ih =>
    have hp := List.length_pos_iff.mpr (splitOn_ne_nil (first :: more) p)
    rw [List.flatMap_cons, List.length_append, List.length_cons, List.forall_mem_cons,
      ← length_splitOn_eq_one_iff hmore, ← ih.2]
    omega

/-- Cutting undoes joining if no part holds the separator. -/
theorem splitOn_join_eq_self {ps : List Text} (hps : ps ≠ [])
    (h : ∀ p ∈ ps, ¬ first :: more <:+: p) :
    splitOn (first :: more) (join (first :: more) ps) = ps := by
  rw [splitOn_join hmore hps]
  clear hps
  induction ps with
  | nil => rfl
  | cons p ps ih =>
    obtain ⟨hp, hps⟩ := List.forall_mem_cons.mp h
    rw [List.flatMap_cons, ih hps, splitOn, splitFrom_of_not_infix hp]
    rfl

/-- What is cut after joining has as many pieces as parts exactly if no part holds the separator. -/
theorem length_splitOn_join_eq_iff {ps : List Text} (hps : ps ≠ []) :
    (splitOn (first :: more) (join (first :: more) ps)).length = ps.length ↔
      ∀ p ∈ ps, ¬ first :: more <:+: p := by
  rw [splitOn_join hmore hps]
  exact (length_flatMap_splitOn_eq_iff hmore ps).2

end

/-! ## Joining -/

theorem join_cons {sep p : Text} {ps : List Text} (hps : ps ≠ []) :
    join sep (p :: ps) = p ++ sep ++ join sep ps := by
  cases ps with
  | nil => exact absurd rfl hps
  | cons q ps => rfl

theorem join_concat {sep : Text} {ps : List Text} (hps : ps ≠ []) (p : Text) :
    join sep (ps ++ [p]) = join sep ps ++ (sep ++ p) := by
  induction ps with
  | nil => exact absurd rfl hps
  | cons q ps ih =>
    cases ps with
    | nil => exact List.append_assoc q sep p
    | cons r ps =>
      have hrest := ih (List.cons_ne_nil r ps)
      rw [List.cons_append, join_cons (by simp), hrest, join_cons (List.cons_ne_nil r ps)]
      simp only [List.append_assoc]

/-- Joining undoes cutting. -/
theorem join_splitOn (first : UInt8) (more t : Text) :
    join (first :: more) (splitOn (first :: more) t) = t := by
  suffices h : ∀ skip piece, join (first :: more) (splitFrom (first :: more) skip piece t) =
      piece.reverse ++ t.drop skip from h 0 []
  induction t with
  | nil => simp [splitFrom, join]
  | cons b t ih =>
    intro skip piece
    cases skip with
    | succ skip => exact ih skip piece
    | zero =>
      rw [splitFrom]
      split
      · next hprefix =>
        obtain ⟨rest, hrest⟩ := List.isPrefixOf_iff_prefix.mp hprefix
        rw [List.cons_append, List.cons.injEq] at hrest
        rw [join_cons (splitFrom_ne_nil _ _ _ _), ih, ← hrest.1, ← hrest.2]
        simp
      · rw [ih 0 (b :: piece)]
        simp

theorem length_join (sep : Text) {ps : List Text} (hps : ps ≠ []) :
    (join sep ps).length + sep.length = ps.flatten.length + ps.length * sep.length := by
  induction ps with
  | nil => exact absurd rfl hps
  | cons p ps ih =>
    cases ps with
    | nil => simp [join]
    | cons q ps =>
      have hrest := ih (List.cons_ne_nil q ps)
      rw [join, List.length_append, List.length_append, List.flatten_cons, List.length_append,
        List.length_cons, Nat.add_mul, Nat.one_mul]
      omega

/-! ## Where a separator can stand -/

/-- A separator does not start in a text without its first byte. -/
theorem infix_append_iff_right {u v : Text} (hu : first ∉ u) :
    first :: more <:+: u ++ v ↔ first :: more <:+: v := by
  induction u with
  | nil => rfl
  | cons b u ih =>
    rw [List.mem_cons, not_or] at hu
    rw [List.cons_append, List.infix_cons_iff, List.cons_prefix_cons, ih hu.2]
    exact or_iff_right fun h => hu.1 h.1

/-- A separator does not end in a text without its last byte. -/
theorem infix_append_iff_left {last : UInt8} {u v : Text} (hv : last ∉ v) :
    more ++ [last] <:+: u ++ v ↔ more ++ [last] <:+: u := by
  have h : (more ++ [last]).reverse <:+: (u ++ v).reverse ↔
      (more ++ [last]).reverse <:+: u.reverse := by
    rw [List.reverse_append, List.reverse_append]
    exact infix_append_iff_right (mt List.mem_reverse.mp hv)
  rwa [List.reverse_infix, List.reverse_infix] at h

end CaseCover.Text
