import CaseCover.Typing.TypeSet

/-!
# The identity of types

Whether two types are the same is decided part by part, except for interfaces, which are the same if
they admit the same types. So types that are the same have the same outline, in which one interface
stands for all (`outline_eq_of_same`), and types without interfaces are the same if and only if they
have the same outline (`same_iff_outline_eq`). Between such types being the same is an equivalence.
Between all of a list of types it is one if it is one between those with an interface
(`IsIdentityAmong.of_interfaces`).

The outline of a type decides which basic type underlies it, because arguments with the same outline
give declared types with the same outline (`outline_subst`, `under_eq_basic_iff`).
-/

namespace CaseCover

namespace Ty

/-! ## Outlines -/

mutual

/-- The type with one interface in place of all, and without the names of type parameters, which are
known by their numbers. -/
def outline : Ty → Ty
  | .basic b => .basic b
  | .named n args => .named n (outlineAll args)
  | .param i _ => .param i []
  | .pointer a => .pointer (outline a)
  | .slice a => .slice (outline a)
  | .array n a => .array n (outline a)
  | .mapping a b => .mapping (outline a) (outline b)
  | .chan d a => .chan d (outline a)
  | .func ps rs v => .func (outlineAll ps) (outlineAll rs) v
  | .struct fs as => .struct fs (outlineAll as)
  | .interface .. => any
  | .union us as => .union us (outlineAll as)
  | .tuple as => .tuple (outlineAll as)

/-- The outlines of a list of types. -/
def outlineAll : List Ty → List Ty
  | [] => []
  | a :: as => outline a :: outlineAll as

end

mutual

/-- An interface is a part of the type. -/
def mentionsInterface : Ty → Bool
  | .basic _ | .param _ _ => false
  | .named _ args => mentionsInterfaceAll args
  | .pointer a | .slice a | .array _ a | .chan _ a => mentionsInterface a
  | .mapping a b => mentionsInterface a || mentionsInterface b
  | .func ps rs _ => mentionsInterfaceAll ps || mentionsInterfaceAll rs
  | .struct _ as | .union _ as | .tuple as => mentionsInterfaceAll as
  | .interface .. => true

/-- An interface is a part of one of the types. -/
def mentionsInterfaceAll : List Ty → Bool
  | [] => false
  | a :: as => mentionsInterface a || mentionsInterfaceAll as

end

theorem outlineAll_eq_map (as : List Ty) : outlineAll as = as.map outline := by
  induction as with
  | nil => rfl
  | cons a as ih => rw [outlineAll, ih, List.map_cons]

/-- Lists of the same length have the same outlines if their types do, pair by pair. -/
theorem outlineAll_eq_of_zip {as bs : List Ty} (hlen : as.length = bs.length)
    (h : ∀ p ∈ as.zip bs, p.1.outline = p.2.outline) : outlineAll as = outlineAll bs := by
  induction as generalizing bs with
  | nil => rw [List.length_eq_zero_iff.mp hlen.symm]
  | cons a as ih =>
    cases bs with
    | nil => cases hlen
    | cons b bs =>
      obtain ⟨hab, hrest⟩ := List.forall_mem_cons.mp h
      rw [outlineAll, outlineAll, hab, ih (Nat.succ.inj hlen) hrest]

@[simp] theorem isNamed_outline (a : Ty) : a.outline.isNamed = a.isNamed := by
  cases a <;> rfl

/-- What has the outline of a declared type is this type with arguments of the same outlines. -/
theorem eq_named_of_outline_eq {n : TypeName} {as : List Ty} {b : Ty}
    (h : (named n as).outline = b.outline) :
    ∃ bs, b = .named n bs ∧ outlineAll as = outlineAll bs := by
  cases b with
  | named m bs =>
    obtain ⟨rfl, hargs⟩ := named.inj h
    exact ⟨bs, rfl, hargs⟩
  | _ => cases h

/-- Only a basic type has the outline of one. -/
theorem outline_eq_basic_iff {a : Ty} {b : Basic} : a.outline = .basic b ↔ a = .basic b := by
  cases a <;> simp [outline, any]

mutual

@[simp] theorem mentionsInterface_outline (a : Ty) :
    a.outline.mentionsInterface = a.mentionsInterface := by
  cases a <;> simp [outline, any, mentionsInterface, mentionsInterface_outline,
    mentionsInterfaceAll_outlineAll]

@[simp] theorem mentionsInterfaceAll_outlineAll (as : List Ty) :
    mentionsInterfaceAll (outlineAll as) = mentionsInterfaceAll as := by
  cases as with
  | nil => rfl
  | cons a as =>
    rw [outlineAll, mentionsInterfaceAll, mentionsInterfaceAll, mentionsInterface_outline,
      mentionsInterfaceAll_outlineAll]

end

mutual

/-- Types that are built alike have the same outline. -/
theorem outline_eq_of_same {a b : Ty} (h : a.same b = true) : a.outline = b.outline := by
  unfold same at h
  split at h <;> simp only [outline, Bool.and_eq_true, beq_iff_eq, Bool.false_eq_true] at h ⊢
  case h_1 => rw [h]
  case h_2 => rw [h.1, outlineAll_eq_of_sameAll h.2]
  case h_3 => rw [h]
  case h_4 => rw [outline_eq_of_same h]
  case h_5 => rw [outline_eq_of_same h]
  case h_6 => rw [h.1, outline_eq_of_same h.2]
  case h_7 => rw [outline_eq_of_same h.1, outline_eq_of_same h.2]
  case h_8 => rw [h.1, outline_eq_of_same h.2]
  case h_9 => rw [h.1.1, outlineAll_eq_of_sameAll h.1.2, outlineAll_eq_of_sameAll h.2]
  case h_10 => rw [h.1, outlineAll_eq_of_sameAll h.2]
  case h_12 => rw [h.1, outlineAll_eq_of_sameAll h.2]
  case h_13 => rw [outlineAll_eq_of_sameAll h]

theorem outlineAll_eq_of_sameAll {as bs : List Ty} (h : sameAll as bs = true) :
    outlineAll as = outlineAll bs := by
  unfold sameAll at h
  split at h
  case h_1 => rfl
  case h_2 =>
    obtain ⟨ha, has⟩ := Bool.and_eq_true_iff.mp h
    rw [outlineAll, outlineAll, outline_eq_of_same ha, outlineAll_eq_of_sameAll has]
  case h_3 => cases h

end

mutual

/-- Without interfaces, types with the same outline are built alike. -/
theorem same_of_outline_eq {a b : Ty} (ha : a.mentionsInterface = false)
    (h : a.outline = b.outline) : a.same b = true := by
  cases a <;> cases b <;> simp only [outline, any, mentionsInterface, reduceCtorEq, basic.injEq,
    named.injEq, param.injEq, pointer.injEq, slice.injEq, array.injEq, mapping.injEq, chan.injEq,
    func.injEq, struct.injEq, union.injEq, tuple.injEq, Bool.or_eq_false_iff, and_true] at h ha
  case basic.basic => simp [same, h]
  case named.named => simp [same, h.1, sameAll_of_outlineAll_eq ha h.2]
  case param.param => simp [same, h]
  case pointer.pointer => rw [same, same_of_outline_eq ha h]
  case slice.slice => rw [same, same_of_outline_eq ha h]
  case array.array => simp [same, h.1, same_of_outline_eq ha h.2]
  case mapping.mapping => simp [same, same_of_outline_eq ha.1 h.1, same_of_outline_eq ha.2 h.2]
  case chan.chan => simp [same, h.1, same_of_outline_eq ha h.2]
  case func.func =>
    simp [same, h.2.2, sameAll_of_outlineAll_eq ha.1 h.1, sameAll_of_outlineAll_eq ha.2 h.2.1]
  case struct.struct => simp [same, h.1, sameAll_of_outlineAll_eq ha h.2]
  case union.union => simp [same, h.1, sameAll_of_outlineAll_eq ha h.2]
  case tuple.tuple => rw [same, sameAll_of_outlineAll_eq ha h]

theorem sameAll_of_outlineAll_eq {as bs : List Ty} (has : mentionsInterfaceAll as = false)
    (h : outlineAll as = outlineAll bs) : sameAll as bs = true := by
  cases as with
  | nil =>
    cases bs with
    | nil => rfl
    | cons b bs => cases h
  | cons a as =>
    cases bs with
    | nil => cases h
    | cons b bs =>
      obtain ⟨ha, has⟩ := Bool.or_eq_false_iff.mp has
      obtain ⟨hab, hrest⟩ := List.cons.inj h
      rw [sameAll, same_of_outline_eq ha hab, sameAll_of_outlineAll_eq has hrest, Bool.and_self]

end

/-! ## Arguments -/

mutual

/-- Putting in arguments and taking the outline can change places. -/
theorem outline_subst (σ : List (Nat × Ty)) (t : Ty) :
    (subst σ t).outline = subst (σ.map fun e => (e.1, e.2.outline)) t.outline := by
  cases t <;> simp only [subst, outline, any, substAll, outline_subst, outlineAll_substAll]
  case param i name =>
    have hmap : (σ.map fun e => (e.1, e.2.outline)).find? (fun e => e.1 == i) =
        (σ.find? fun e => e.1 == i).map fun e => (e.1, e.2.outline) := List.find?_map
    rw [hmap]
    cases σ.find? fun e => e.1 == i <;> rfl

theorem outlineAll_substAll (σ : List (Nat × Ty)) (ts : List Ty) :
    outlineAll (substAll σ ts) = substAll (σ.map fun e => (e.1, e.2.outline)) (outlineAll ts) := by
  cases ts with
  | nil => rfl
  | cons t ts =>
    rw [substAll, outlineAll, outlineAll, substAll, outline_subst, outlineAll_substAll]

end

/-- Arguments with the same outlines give types with the same outline. -/
theorem outline_subst_zip {params : List Nat} {as bs : List Ty} (h : outlineAll as = outlineAll bs)
    (t : Ty) : (subst (params.zip as) t).outline = (subst (params.zip bs) t).outline := by
  have hzip : ∀ cs : List Ty, ((params.zip cs).map fun e => (e.1, e.2.outline)) =
      params.zip (outlineAll cs) := by
    intro cs
    rw [outlineAll_eq_map, List.zip_map_right]
    rfl
  rw [outline_subst, outline_subst, hzip, hzip, h]

end Ty

namespace TypeTable

open Ty (outline outlineAll)

variable {tb : TypeTable} {a b c : Ty} {ts : List Ty}

/-! ## Underlying types -/

theorem follow_of_not_named (k : Nat) (ha : a.isNamed = false) : tb.follow (k + 1) a = some a := by
  cases a with
  | named n args => cases ha
  | _ => rfl

/-- Arguments with the same outlines expand a name to types with the same outline. -/
theorem outline_expand {n : TypeName} {as bs : List Ty} (h : outlineAll as = outlineAll bs) :
    (tb.expand n as).map outline = (tb.expand n bs).map outline := by
  unfold expand
  cases tb.decl? n with
  | none => rfl
  | some d =>
    cases hd : d.definition with
    | none => simp [hd]
    | some t => simp [hd, Ty.outline_subst_zip h]

/-- Types with the same outline have underlying types with the same outline. -/
theorem outline_follow (k : Nat) (h : a.outline = b.outline) :
    (tb.follow k a).map outline = (tb.follow k b).map outline := by
  induction k generalizing a b with
  | zero => rfl
  | succ k ih =>
    cases hnamed : a.isNamed with
    | true =>
      cases a with
      | named n as =>
        obtain ⟨bs, rfl, hargs⟩ := Ty.eq_named_of_outline_eq h
        have hexpand : (tb.expand n as).map outline = (tb.expand n bs).map outline :=
          outline_expand hargs
        rw [follow, follow]
        revert hexpand
        cases tb.expand n as <;> cases tb.expand n bs <;> intro hexpand
        · rfl
        · cases hexpand
        · cases hexpand
        · exact ih (Option.some.inj hexpand)
      | _ => cases hnamed
    | false =>
      have hb : b.isNamed = false := by rw [← Ty.isNamed_outline, ← h, Ty.isNamed_outline, hnamed]
      rw [follow_of_not_named k hnamed, follow_of_not_named k hb, Option.map_some, Option.map_some, h]

/-- A basic type is below both of two types with the same outline, or below neither. -/
theorem unname_eq_basic_iff {x : Basic} (h : a.outline = b.outline) :
    tb.unname a = .basic x ↔ tb.unname b = .basic x := by
  have houtline : (tb.unname a).outline = (tb.unname b).outline := by
    have hget : ∀ o : Option Ty, (o.getD (.basic .invalid)).outline =
        (o.map outline).getD (.basic .invalid) := fun o => by cases o <;> rfl
    rw [unname, unname, hget, hget, outline_follow _ h]
  rw [← Ty.outline_eq_basic_iff, houtline, Ty.outline_eq_basic_iff]

/-! ## Sameness -/

mutual

/-- Types that are the same have the same outline, by induction on the depth. -/
theorem outline_eq_of_sameWithin {k : Nat} {pairs : List (Ty × Ty)} {a b : Ty}
    (h : tb.sameWithin true k pairs a b = true) : a.outline = b.outline := by
  cases k with
  | zero => simp [sameWithin] at h
  | succ k =>
    unfold sameWithin at h
    split at h <;>
      simp only [outline, Bool.and_eq_true, beq_iff_eq, Bool.false_eq_true, if_true] at h ⊢
    case h_1 => rw [h]
    case h_2 => rw [h.1, outlineAll_eq_of_sameAllWithin h.2]
    case h_3 => rw [h]
    case h_4 => rw [outline_eq_of_sameWithin h]
    case h_5 => rw [outline_eq_of_sameWithin h]
    case h_6 => rw [h.1, outline_eq_of_sameWithin h.2]
    case h_7 => rw [outline_eq_of_sameWithin h.1, outline_eq_of_sameWithin h.2]
    case h_8 => rw [h.1, outline_eq_of_sameWithin h.2]
    case h_9 =>
      rw [h.1.1, outlineAll_eq_of_sameAllWithin h.1.2, outlineAll_eq_of_sameAllWithin h.2]
    case h_10 => rw [h.1, outlineAll_eq_of_sameAllWithin h.2]
    case h_12 => rw [h.1, outlineAll_eq_of_sameAllWithin h.2]
    case h_13 => rw [outlineAll_eq_of_sameAllWithin h]

theorem outlineAll_eq_of_sameAllWithin {k : Nat} {pairs : List (Ty × Ty)} {as bs : List Ty}
    (h : tb.sameAllWithin true k pairs as bs = true) : outlineAll as = outlineAll bs := by
  cases k with
  | zero => simp [sameAllWithin] at h
  | succ k =>
    rw [sameAllWithin, Bool.and_eq_true, beq_iff_eq, List.all_eq_true] at h
    exact Ty.outlineAll_eq_of_zip h.1 fun p hp => outline_eq_of_sameWithin (h.2 p hp)

end

/-- Types that are the same have the same outline. -/
theorem outline_eq_of_same (h : tb.same a b = true) : a.outline = b.outline := by
  rcases Bool.or_eq_true_iff.mp h with h | h
  · exact Ty.outline_eq_of_same h
  · exact outline_eq_of_sameWithin h

/-- Without interfaces, types are the same if and only if they have the same outline. -/
theorem same_iff_outline_eq (ha : a.mentionsInterface = false) :
    tb.same a b = true ↔ a.outline = b.outline :=
  ⟨outline_eq_of_same, fun h => Bool.or_eq_true_iff.mpr (.inl (Ty.same_of_outline_eq ha h))⟩

/-- Of two types that are the same, both mention an interface or none. -/
theorem mentionsInterface_eq_of_same (h : tb.same a b = true) :
    a.mentionsInterface = b.mentionsInterface := by
  rw [← Ty.mentionsInterface_outline, outline_eq_of_same h, Ty.mentionsInterface_outline]

/-- Being the same is an equivalence between the types of a list. -/
structure IsIdentityAmong (tb : TypeTable) (ts : List Ty) : Prop where
  symm : ∀ a ∈ ts, ∀ b ∈ ts, tb.same a b = true → tb.same b a = true
  trans : ∀ a ∈ ts, ∀ b ∈ ts, ∀ c ∈ ts, tb.same a b = true → tb.same b c = true →
    tb.same a c = true

/-- Only types with an interface can keep sameness from being an equivalence. -/
theorem IsIdentityAmong.of_interfaces (h : tb.IsIdentityAmong (ts.filter Ty.mentionsInterface)) :
    tb.IsIdentityAmong ts where
  symm := by
    intro a ha b hb hab
    have hmention := mentionsInterface_eq_of_same hab
    by_cases hi : a.mentionsInterface = true
    · exact h.symm a (List.mem_filter.mpr ⟨ha, hi⟩) b (List.mem_filter.mpr ⟨hb, hmention ▸ hi⟩) hab
    · have hb' : b.mentionsInterface = false := by rw [← hmention, Bool.eq_false_iff.mpr hi]
      exact (same_iff_outline_eq hb').mpr (outline_eq_of_same hab).symm
  trans := by
    intro a ha b hb c hc hab hbc
    have hmention := mentionsInterface_eq_of_same hab
    by_cases hi : a.mentionsInterface = true
    · have hib : b.mentionsInterface = true := hmention ▸ hi
      have hic : c.mentionsInterface = true := mentionsInterface_eq_of_same hbc ▸ hib
      exact h.trans a (List.mem_filter.mpr ⟨ha, hi⟩) b (List.mem_filter.mpr ⟨hb, hib⟩) c
        (List.mem_filter.mpr ⟨hc, hic⟩) hab hbc
    · refine (same_iff_outline_eq (Bool.eq_false_iff.mpr hi)).mpr ?_
      exact (outline_eq_of_same hab).trans (outline_eq_of_same hbc)

/-- Seen from types that are the same, a third type is the same or not. -/
theorem IsIdentityAmong.same_congr (h : tb.IsIdentityAmong ts) (ha : a ∈ ts) (hb : b ∈ ts)
    (hc : c ∈ ts) (hab : tb.same a b = true) : tb.same c a = tb.same c b := by
  rw [Bool.eq_iff_iff]
  exact ⟨fun hca => h.trans c hc a ha b hb hca hab,
    fun hcb => h.trans c hc b hb a ha hcb (h.symm a ha b hb hab)⟩

end TypeTable

end CaseCover
