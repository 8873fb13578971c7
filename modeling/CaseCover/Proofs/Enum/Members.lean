import CaseCover.Proofs.Enum.Flags
import CaseCover.Proofs.Text.Order

/-!
# The members of enumerations

A declared type over texts, numbers or truth values is an enumeration of the constants that its
package declares of it, as far as the viewer sees them: those that are exported, and all of them
from within the package. The members are these constants in the order of their positions, those at
one position in the order of their names. There is no enumeration if there are no such constants, if
the value of one is not known, or if they look like flags.

Which constants are left out changes nothing in the order of the others (`filter_ordered`), so
another package sees the members that the declaring package sees, without those it cannot name.
-/

namespace CaseCover.Enum

/-! ## Order -/

/-- One constant comes before another: by position, and by name where they stand at one position. -/
def Precedes (a b : DeclaredConst) : Prop :=
  a.pos < b.pos ∨ a.pos = b.pos ∧ Text.lessEq a.name b.name = true

theorem ordered_perm (cs : List DeclaredConst) : (ordered cs).Perm cs :=
  (List.mergeSort_perm _ _).trans (List.mergeSort_perm _ _)

theorem ordered_pairwise (cs : List DeclaredConst) : (ordered cs).Pairwise Precedes := by
  have hnames : (cs.mergeSort fun a b => Text.lessEq a.name b.name).Pairwise
      fun a b => Text.lessEq a.name b.name = true :=
    List.pairwise_mergeSort (fun a b c => Text.lessEq_trans a.name b.name c.name)
      (fun a b => Text.lessEq_total a.name b.name) cs
  refine (mergeSort_pairwise_of_pairwise (decide_le_trans DeclaredConst.pos)
    (decide_le_total DeclaredConst.pos) hnames).imp fun {a b} h => ?_
  rcases Nat.lt_or_eq_of_le (of_decide_eq_true h.1) with hlt | heq
  · exact .inl hlt
  · exact .inr ⟨heq, h.2 (decide_eq_true (Nat.le_of_eq heq.symm))⟩

/-- Picking constants can be done before ordering or after. -/
theorem filter_ordered (p : DeclaredConst → Bool) (cs : List DeclaredConst) :
    (ordered cs).filter p = ordered (cs.filter p) := by
  unfold ordered
  rw [filter_mergeSort (decide_le_trans DeclaredConst.pos) (decide_le_total DeclaredConst.pos),
    filter_mergeSort (fun a b c => Text.lessEq_trans a.name b.name c.name)
      (fun a b => Text.lessEq_total a.name b.name)]

/-! ## Unions -/

/-- The literal that a constant declares. -/
def literalOf (c : DeclaredConst) : Literal := ⟨⟨c.value⟩, c.name, c.pos⟩

/-- Constants that make no enumeration: there are none, the value of one is not known, or they look
like flags. -/
def MakeNone (cs : List DeclaredConst) : Prop :=
  cs = [] ∨ (∃ c ∈ cs, c.value = none) ∨ looksLikeFlags (cs.map (·.value)) = true

/-- Whether constants make no enumeration does not depend on their order. -/
theorem makeNone_iff_of_perm {cs ds : List DeclaredConst} (h : cs.Perm ds) :
    MakeNone cs ↔ MakeNone ds := by
  have hnil : cs = [] ↔ ds = [] := by
    rw [← List.length_eq_zero_iff, ← List.length_eq_zero_iff, h.length_eq]
  unfold MakeNone
  rw [looksLikeFlags_eq_of_perm (h.map _), hnil]
  simp only [h.mem_iff]

theorem unionOf_of_makeNone {cs : List DeclaredConst} (h : MakeNone cs) : unionOf cs = .other := by
  refine if_pos ?_
  rcases h with rfl | ⟨c, hc, hvalue⟩ | hflags
  · rfl
  · have : cs.any (·.value.isNone) = true := List.any_eq_true.mpr ⟨c, hc, by rw [hvalue]; rfl⟩
    rw [this, Bool.or_true, Bool.true_or]
  · rw [hflags, Bool.or_true]

theorem unionOf_of_not_makeNone {cs : List DeclaredConst} (h : ¬MakeNone cs) :
    unionOf cs = .union ((cs.map literalOf).map .literal) := by
  rw [List.map_map]
  refine if_neg fun hcond => h ?_
  rcases Bool.or_eq_true_iff.mp hcond with hcond | hflags
  · rcases Bool.or_eq_true_iff.mp hcond with hempty | hany
    · exact .inl (List.isEmpty_iff.mp hempty)
    · obtain ⟨c, hc, hnone⟩ := List.any_eq_true.mp hany
      exact .inr (.inl ⟨c, hc, Option.isNone_iff_eq_none.mp hnone⟩)
  · exact .inr (.inr hflags)

/-- Texts are no flags, so constants that are texts make an enumeration. -/
theorem not_makeNone_of_texts {cs : List DeclaredConst} (hne : cs ≠ [])
    (h : ∀ c ∈ cs, ∃ s, c.value = some (.str s)) : ¬MakeNone cs := by
  rintro (hnil | ⟨c, hc, hvalue⟩ | hflags)
  · exact hne hnil
  · obtain ⟨s, hs⟩ := h c hc
    rw [hs] at hvalue
    cases hvalue
  · cases cs with
    | nil => exact hne rfl
    | cons c cs =>
      obtain ⟨s, hs⟩ := h c List.mem_cons_self
      rw [looksLikeFlags, List.map_cons, hs] at hflags
      cases hflags

/-- A union of constants has their literals as members. -/
theorem members_of_unionOf {cs : List DeclaredConst} {ms : List Shape}
    (h : unionOf cs = .union ms) : ms = (cs.map literalOf).map .literal := by
  by_cases hcs : MakeNone cs
  · rw [unionOf_of_makeNone hcs] at h
    cases h
  · rw [unionOf_of_not_makeNone hcs] at h
    exact (Shape.union.inj h).symm

/-! ## Types -/

/-- A type is declared in a package, over texts, numbers or truth values. -/
def IsDeclaredIn (v : Viewpoint) (p : ConstScope) (t : Ty) : Prop :=
  ∃ n args b, t = .named n args ∧ v.table.under t = .basic b ∧
    (b.isString = true ∨ b.isNumeric = true ∨ b.isBoolean = true) ∧ n.home = some p.path ∧
    v.packages.find? (fun q => q.path == p.path) = some p

/-- A constant counts as a value of a type: it is of this type, and the viewer sees it. -/
def Counts (v : Viewpoint) (p : ConstScope) (t : Ty) (c : DeclaredConst) : Prop :=
  v.table.same c.type t = true ∧ (Text.isExported c.name = true ∨ v.viewer = some p.path)

instance (v : Viewpoint) (p : ConstScope) (t : Ty) : DecidablePred (Counts v p t) :=
  fun _ => inferInstanceAs (Decidable (_ ∧ _))

/-- The constants of a package that count as values of a type. -/
def valuesOf (v : Viewpoint) (p : ConstScope) (t : Ty) : List DeclaredConst :=
  p.constants.filter fun c => decide (Counts v p t c)

variable {v : Viewpoint} {p : ConstScope} {t : Ty}

/-- The search through the scope finds the constants that count. -/
theorem visible_eq_valuesOf (v : Viewpoint) (p : ConstScope) (t : Ty) :
    visible v p t = valuesOf v p t := by
  refine List.filter_congr fun c _ => ?_
  rw [Bool.eq_iff_iff, decide_eq_true_eq, Counts]
  simp [or_comm]

/-- A type that is declared in a scope is judged by its constants there, in order. -/
theorem shapeOf_of_isDeclaredIn (h : IsDeclaredIn v p t) :
    shapeOf v t = unionOf (ordered (valuesOf v p t)) := by
  rw [← visible_eq_valuesOf]
  obtain ⟨n, args, b, rfl, hunder, hbasic, hhome, hfind⟩ := h
  have hconst : b.isConstant = true := by
    rw [Basic.isConstant]
    rcases hbasic with h | h | h <;> rw [h] <;> simp
  simp only [shapeOf, hunder, hhome, hconst, hfind, if_true]

/-- A type that is declared in no scope is no enumeration. -/
theorem shapeOf_of_not_isDeclaredIn (h : ∀ p, ¬IsDeclaredIn v p t) : shapeOf v t = .other := by
  unfold shapeOf
  split
  · next n args =>
    split
    · next b path hunder hhome =>
      split
      · next hconst =>
        split
        · next p hfind =>
          have hpath := List.find?_some hfind
          obtain rfl := beq_iff_eq.mp hpath
          refine absurd ⟨n, args, b, rfl, hunder, ?_, hhome, hfind⟩ (h p)
          simp only [Basic.isConstant, Bool.or_eq_true] at hconst
          rcases hconst with (h | h) | h
          · exact .inr (.inr h)
          · exact .inr (.inl h)
          · exact .inl h
        · rfl
      · rfl
    · rfl
  · rfl

/-- What another package sees of the constants that count for the declaring one. -/
theorem valuesOf_of_viewer (hviewer : v.viewer = some p.path) {other : Option Text}
    (hother : other ≠ some p.path) :
    valuesOf { v with viewer := other } p t =
      (valuesOf v p t).filter fun c => Text.isExported c.name := by
  rw [valuesOf, valuesOf, List.filter_filter]
  refine List.filter_congr fun c _ => ?_
  rw [Bool.eq_iff_iff, decide_eq_true_eq, Bool.and_eq_true, decide_eq_true_eq]
  simp only [Counts, hviewer, hother, or_true, or_false, and_true]
  exact and_comm

/-- The shape of a type, from the constants that count as its values. Every other type has none. Of
the members that the declaring package sees, another package sees those that are exported. -/
theorem shape_of_type (v : Viewpoint) (t : Ty) :
    (∀ p, IsDeclaredIn v p t →
      (MakeNone (valuesOf v p t) → answer v (.typed t) = .other) ∧
      (¬MakeNone (valuesOf v p t) →
        ∃ cs : List DeclaredConst, cs.Perm (valuesOf v p t) ∧ cs.Pairwise Precedes ∧
          answer v (.typed t) = .union ((cs.map literalOf).map .literal))) ∧
    ((∀ p, ¬IsDeclaredIn v p t) → answer v (.typed t) = .other) ∧
    ∀ p, IsDeclaredIn v p t → v.viewer = some p.path →
      ∀ other, other ≠ some p.path → ∀ ms ns, answer v (.typed t) = .union ms →
        answer { v with viewer := other } (.typed t) = .union ns →
        ∃ ls : List Literal, ms = ls.map .literal ∧
          ns = (ls.filter fun l => Text.isExported l.name).map .literal := by
  refine ⟨fun p hp => ?_, shapeOf_of_not_isDeclaredIn, ?_⟩
  · rw [← makeNone_iff_of_perm (ordered_perm (valuesOf v p t)), answer, shapeOf_of_isDeclaredIn hp]
    exact ⟨unionOf_of_makeNone, fun h => ⟨ordered (valuesOf v p t), ordered_perm _,
      ordered_pairwise _, unionOf_of_not_makeNone h⟩⟩
  · intro p hp hviewer other hother ms ns hms hns
    have hp' : IsDeclaredIn { v with viewer := other } p t := hp
    rw [answer, shapeOf_of_isDeclaredIn hp] at hms
    rw [answer, shapeOf_of_isDeclaredIn hp', valuesOf_of_viewer hviewer hother,
      ← filter_ordered] at hns
    refine ⟨(ordered (valuesOf v p t)).map literalOf, members_of_unionOf hms, ?_⟩
    rw [List.filter_map]
    exact members_of_unionOf hns

/-- The type `p.Colour`. -/
def colour : Ty := .named ⟨some "p", "Colour", 2⟩ []

/-- A package `p` with three constants of the type, two of them at one position. -/
def colours : ConstScope :=
  ⟨"p", [⟨"Green", 5, colour, some (.str "g")⟩, ⟨"Red", 3, colour, some (.str "r")⟩,
    ⟨"blue", 5, colour, some (.str "b")⟩]⟩

/-- The package looks at its own type, which is one over texts. -/
def colourView : Viewpoint :=
  ⟨⟨[.plain ⟨some "p", "Colour", 2⟩ (.basic .string)], []⟩, [colours], some "p"⟩

theorem shape_of_colour :
    IsDeclaredIn colourView colours colour ∧ ¬MakeNone (valuesOf colourView colours colour) ∧
    (∃ cs : List DeclaredConst, cs.Perm (valuesOf colourView colours colour) ∧
      cs.Pairwise Precedes ∧
      answer colourView (.typed colour) = .union ((cs.map literalOf).map .literal)) ∧
    ∃ ls : List Literal, answer colourView (.typed colour) = .union (ls.map .literal) ∧
      answer { colourView with viewer := some "q" } (.typed colour) =
        .union ((ls.filter fun l => Text.isExported l.name).map .literal) := by
  have hdeclared : IsDeclaredIn colourView colours colour :=
    ⟨_, _, .string, rfl, rfl, .inl rfl, rfl, rfl⟩
  have hmake : ¬MakeNone (valuesOf colourView colours colour) :=
    not_makeNone_of_texts (List.cons_ne_nil _ _) (by simp [valuesOf, colours])
  have hmake' : ¬MakeNone (valuesOf { colourView with viewer := some "q" } colours colour) :=
    not_makeNone_of_texts (List.cons_ne_nil _ _) (by simp [valuesOf, colours])
  have hown := shape_of_type colourView colour
  have hother := shape_of_type { colourView with viewer := some "q" } colour
  obtain ⟨cs, hperm, hsorted, hcs⟩ := (hown.1 colours hdeclared).2 hmake
  obtain ⟨ds, -, -, hds⟩ := (hother.1 colours hdeclared).2 hmake'
  obtain ⟨ls, hls, hls'⟩ := hown.2.2 colours hdeclared rfl (some "q") (by decide) _ _ hcs hds
  exact ⟨hdeclared, hmake, ⟨cs, hperm, hsorted, hcs⟩, ls, hls ▸ hcs, hls' ▸ hds⟩

end CaseCover.Enum
