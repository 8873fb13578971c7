import CaseCover.Proofs.Source.Preorder
import CaseCover.Source.Position

/-!
# Where statements stand

What is inside a statement lies between its start and its end, and what follows it in source order
starts at its end or later. For statements in depth-first order this relates each of them to the
ones after it (`LaidOut`), and lists laid out one after the other are laid out together
(`LaidOut.append`).

Without line directives, the lines of a file grow with its positions (`FileSet.HoldsPlain`).
-/

namespace CaseCover

/-! ## Statements inside statements -/

namespace Stmt

theorem mem_statements_self {s : Stmt} (hs : s.isAbsent = false) : s ∈ s.statements :=
  @SourcePart.mem_statements_of_within (.stmt s) s hs .self

theorem isAbsent_of_mem {s t : Stmt} (h : t ∈ s.statements) : t.isAbsent = false :=
  ((@SourcePart.mem_statements_iff (.stmt s) t).mp h).2

end Stmt

/-! ## Statements between two positions -/

/-- A statement starts after another one, and not before its end. An empty statement may have no
extent, so that neither follows from the other. -/
def Stmt.Precedes (s t : Stmt) : Prop := s.pos < t.pos ∧ s.stop ≤ t.pos

/-- Statements in depth-first order stand between two positions, what is inside a statement stands
between its start and its end, and a statement precedes those that come after it, unless they are
inside it. -/
structure LaidOut (lo : Pos) (ss : List Stmt) (hi : Pos) : Prop where
  le : lo ≤ hi
  between : ∀ s ∈ ss, lo ≤ s.pos ∧ s.pos ≤ s.stop ∧ s.pos < hi ∧ s.stop ≤ hi
  nested : ∀ s ∈ ss, ∀ t ∈ s.statements, s.pos ≤ t.pos ∧ t.stop ≤ s.stop
  ordered : ss.Pairwise fun s t => t ∈ s.statements ∨ s.Precedes t

namespace LaidOut

variable {lo mid mid' hi lo' hi' : Pos} {a b ss : List Stmt} {s : Stmt}

theorem nil (h : lo ≤ hi) : LaidOut lo [] hi where
  le := h
  between _ hs := nomatch hs
  nested _ hs := nomatch hs
  ordered := .nil

theorem mono (h : LaidOut lo ss hi) (hlo : lo' ≤ lo) (hhi : hi ≤ hi') : LaidOut lo' ss hi' where
  le := Nat.le_trans hlo (Nat.le_trans h.le hhi)
  between s hs := by
    have hs := h.between s hs
    exact ⟨Nat.le_trans hlo hs.1, hs.2.1, Nat.lt_of_lt_of_le hs.2.2.1 hhi,
      Nat.le_trans hs.2.2.2 hhi⟩
  nested := h.nested
  ordered := h.ordered

theorem append (ha : LaidOut lo a mid) (hb : LaidOut mid' b hi) (hmid : mid ≤ mid') :
    LaidOut lo (a ++ b) hi where
  le := Nat.le_trans ha.le (Nat.le_trans hmid hb.le)
  between s hs := by
    rcases List.mem_append.mp hs with hs | hs
    · exact (ha.mono (Nat.le_refl _) (Nat.le_trans hmid hb.le)).between s hs
    · exact (hb.mono (Nat.le_trans ha.le hmid) (Nat.le_refl _)).between s hs
  nested s hs := by
    rcases List.mem_append.mp hs with hs | hs
    · exact ha.nested s hs
    · exact hb.nested s hs
  ordered := by
    refine List.pairwise_append.mpr ⟨ha.ordered, hb.ordered, fun s hs t ht => .inr ?_⟩
    obtain ⟨-, -, hstart, hstop⟩ := ha.between s hs
    have hmid := Nat.le_trans hmid (hb.between t ht).1
    exact ⟨Nat.lt_of_lt_of_le hstart hmid, Nat.le_trans hstop hmid⟩

theorem tail (h : LaidOut lo (s :: ss) hi) : LaidOut lo ss hi where
  le := h.le
  between t ht := h.between t (List.mem_cons_of_mem _ ht)
  nested t ht := h.nested t (List.mem_cons_of_mem _ ht)
  ordered := (List.pairwise_cons.mp h.ordered).2

/-- A statement is laid out if what is inside it is, from its start on and not behind its end. -/
theorem cons (hs : s.statements = s :: ss) (hinner : LaidOut s.pos ss hi)
    (hinside : ∀ t ∈ ss, t.stop ≤ s.stop) (hlo : lo ≤ s.pos) (hle : s.pos ≤ s.stop)
    (hstart : s.pos < hi) (hstop : s.stop ≤ hi) : LaidOut lo (s :: ss) hi where
  le := Nat.le_trans hlo (Nat.le_of_lt hstart)
  between t ht := by
    rcases List.mem_cons.mp ht with rfl | ht
    · exact ⟨hlo, hle, hstart, hstop⟩
    · exact (hinner.mono hlo (Nat.le_refl _)).between t ht
  nested t ht u hu := by
    rcases List.mem_cons.mp ht with rfl | ht
    · rcases List.mem_cons.mp (hs ▸ hu) with rfl | hu
      · exact ⟨Nat.le_refl _, Nat.le_refl _⟩
      · exact ⟨(hinner.between u hu).1, hinside u hu⟩
    · exact hinner.nested t ht u hu
  ordered := List.pairwise_cons.mpr
    ⟨fun t ht => .inl (hs ▸ List.mem_cons_of_mem _ ht), hinner.ordered⟩

/-- The first statement with a property comes before all others with it: they are inside it, or it
precedes them. -/
theorem of_find? (h : LaidOut lo ss hi) {p : Stmt → Bool} (hfind : ss.find? p = some s) {t : Stmt}
    (ht : t ∈ ss) (hp : p t = true) : t = s ∨ t ∈ s.statements ∨ s.Precedes t := by
  obtain ⟨-, before, after, rfl, hbefore⟩ := List.find?_eq_some_iff_append.mp hfind
  rcases List.mem_append.mp ht with ht | ht
  · have hnot := hbefore t ht
    rw [hp] at hnot
    cases hnot
  · rcases List.mem_cons.mp ht with rfl | ht
    · exact .inl rfl
    · have hafter := (List.pairwise_append.mp h.ordered).2.1
      exact .inr ((List.pairwise_cons.mp hafter).1 t ht)

/-- Of two statements one is inside the other, or one precedes the other. -/
theorem compare (h : LaidOut lo ss hi) {t : Stmt} (hs : s ∈ ss) (ht : t ∈ ss) :
    t = s ∨ (t ∈ s.statements ∨ s.Precedes t) ∨ s ∈ t.statements ∨ t.Precedes s := by
  obtain ⟨before, after, rfl⟩ := List.append_of_mem hs
  obtain ⟨-, hafter, hacross⟩ := List.pairwise_append.mp h.ordered
  rcases List.mem_append.mp ht with ht | ht
  · exact .inr (.inr (hacross t ht s List.mem_cons_self))
  · rcases List.mem_cons.mp ht with rfl | ht
    · exact .inl rfl
    · exact .inr (.inl ((List.pairwise_cons.mp hafter).1 t ht))

end LaidOut

/-! ## Lines without directives -/

namespace FileMap

/-- A later offset is on no earlier line. -/
theorem lineOf_mono (starts : List Nat) {i j : Nat} (h : i ≤ j) :
    (lineOf starts i).1 ≤ (lineOf starts j).1 := by
  simp only [lineOf]
  induction starts with
  | nil => exact Nat.le_refl _
  | cons start starts ih =>
    simp only [List.takeWhile_cons]
    by_cases hi : start ≤ i
    · have hj : start ≤ j := Nat.le_trans hi h
      simpa [hi, hj] using ih
    · simp [hi]

/-- Without directives, the line of the file is the one reported. -/
theorem reported_of_plain {m : FileMap} (h : m.marks = []) (offset : Nat) :
    m.reported offset = m.physical offset := by
  simp [reported, h, markAt]

end FileMap

namespace FileSet

/-- The files of a set take positions one after the other, and none takes the position 0. -/
structure InOrder (s : FileSet) : Prop where
  base_pos : ∀ m ∈ s.files, 0 < m.base
  ordered : s.files.Pairwise fun a b => a.base + a.size < b.base

theorem inOrder_empty : empty.InOrder := ⟨nofun, .nil⟩

/-- No file starts at position 0. -/
theorem nextBase_pos (s : FileSet) : 0 < s.nextBase := by
  unfold nextBase
  split
  · exact Nat.succ_pos _
  · exact Nat.one_pos

namespace InOrder

variable {s : FileSet} (h : s.InOrder) {m : FileMap}
include h

/-- Every file ends before the next one would start. -/
theorem lt_nextBase (hm : m ∈ s.files) : m.base + m.size < s.nextBase := by
  have hne : s.files ≠ [] := List.ne_nil_of_mem hm
  have hsplit := List.dropLast_concat_getLast hne
  rw [nextBase, List.getLast?_eq_some_getLast hne]
  refine Nat.lt_succ_of_le ?_
  have hordered := h.ordered
  rw [← hsplit] at hordered hm
  rcases List.mem_append.mp hm with hm | hm
  · have hlt := (List.pairwise_append.mp hordered).2.2 m hm _ List.mem_cons_self
    exact Nat.le_trans (Nat.le_of_lt hlt) (Nat.le_add_right _ _)
  · cases List.mem_singleton.mp hm
    exact Nat.le_refl _

/-- A file that starts where the next one may start. -/
theorem add (hm : m.base = s.nextBase) : InOrder ⟨s.files ++ [m]⟩ where
  base_pos n hn := by
    rcases List.mem_append.mp hn with hn | hn
    · exact h.base_pos n hn
    · rw [List.mem_singleton.mp hn, hm]
      exact s.nextBase_pos
  ordered := by
    refine List.pairwise_append.mpr ⟨h.ordered, List.pairwise_singleton _ _, fun n hn m' hm' => ?_⟩
    rw [List.mem_singleton.mp hm', hm]
    exact h.lt_nextBase hn

/-- A position of a file is of no other one. -/
theorem fileOf_eq (hm : m ∈ s.files) {p : Pos} (hlo : m.base ≤ p) (hhi : p ≤ m.base + m.size) :
    s.fileOf p = some m := by
  obtain ⟨before, after, hfiles⟩ := List.append_of_mem hm
  have hordered := h.ordered
  rw [hfiles] at hordered
  rw [fileOf, List.find?_eq_some_iff_append]
  refine ⟨by simp [hlo, hhi], before, after, hfiles, fun n hn => ?_⟩
  have hlt := (List.pairwise_append.mp hordered).2.2 n hn m List.mem_cons_self
  simp only [Bool.not_eq_true', Bool.and_eq_false_iff, decide_eq_false_iff_not]
  exact .inr (Nat.not_le.mpr (Nat.lt_of_lt_of_le hlt hlo))

end InOrder

/-- A set of files in order has a file without line directives. -/
structure HoldsPlain (s : FileSet) (m : FileMap) : Prop where
  inOrder : s.InOrder
  mem : m ∈ s.files
  plain : m.marks = []

namespace HoldsPlain

variable {s : FileSet} {m : FileMap} (h : s.HoldsPlain m) {p q : Pos}
include h

/-- A position of a plain file is on its line of the file. -/
theorem place_eq (hlo : m.base ≤ p) (hhi : p ≤ m.base + m.size) :
    s.place p = m.physical (p - m.base) := by
  have hp : p ≠ 0 :=
    Nat.pos_iff_ne_zero.mp (Nat.lt_of_lt_of_le (h.inOrder.base_pos m h.mem) hlo)
  rw [place, if_neg hp, h.inOrder.fileOf_eq h.mem hlo hhi]
  exact FileMap.reported_of_plain h.plain _

theorem filename_eq (hlo : m.base ≤ p) (hhi : p ≤ m.base + m.size) :
    (s.place p).filename = m.name := by
  rw [h.place_eq hlo hhi]
  rfl

/-- Lines grow with positions. -/
theorem line_mono (hlo : m.base ≤ p) (hpq : p ≤ q) (hhi : q ≤ m.base + m.size) :
    (s.place p).line ≤ (s.place q).line := by
  rw [h.place_eq hlo (Nat.le_trans hpq hhi), h.place_eq (Nat.le_trans hlo hpq) hhi]
  have hle : p - m.base ≤ q - m.base := Nat.sub_le_sub_right hpq _
  exact Int.ofNat_le.mpr (FileMap.lineOf_mono m.lineStarts hle)

end HoldsPlain

end FileSet

end CaseCover
