import CaseCover.Path.Glob

/-!
# Patterns that are mostly literal

A text without special bytes stands for itself: as a chunk of a pattern it is a sequence of byte
pieces, and these match exactly the names that start with it. So a star in front of such a text
matches the names that end with it (`glob_star_literal`), as long as no separator has to be passed
over, and a pattern that is literal up to its star is never malformed (`glob_literal_star`).
-/

namespace CaseCover.Path

/-- The byte that stands for any run of bytes. -/
def star : UInt8 := 0x2A

/-! ## Literal chunks -/

theorem hasMeta_cons (b : UInt8) (p : Text) :
    hasMeta (b :: p) = false ↔
      (b ≠ 0x2A ∧ b ≠ 0x3F ∧ b ≠ 0x5B ∧ b ≠ 0x5C) ∧ hasMeta p = false := by
  simp [hasMeta, and_assoc]

theorem hasMeta_append (p q : Text) : hasMeta (p ++ q) = (hasMeta p || hasMeta q) :=
  List.any_append

theorem cut_append {lit t : Text} (hlit : hasMeta lit = false)
    (ht : globChunk.cut false t = ([], t)) : globChunk.cut false (lit ++ t) = (lit, t) := by
  induction lit with
  | nil => exact ht
  | cons b lit ih =>
    obtain ⟨⟨hstar, -, hopen, hslash⟩, hlit⟩ := (hasMeta_cons b lit).mp hlit
    have hnext := ih hlit
    rw [List.cons_append, globChunk.cut.eq_def]
    split
    · next heq => cases heq
    · next heq => exact absurd (List.cons.inj heq).1 hslash
    · next heq =>
      obtain ⟨rfl, rfl⟩ := List.cons.inj heq
      simp only [beq_eq_false_iff_ne.mpr hstar, beq_eq_false_iff_ne.mpr hopen, Bool.false_and,
        Bool.false_eq_true, ↓reduceIte, ite_self, hnext]

theorem cut_literal {lit : Text} (hlit : hasMeta lit = false) :
    globChunk.cut false lit = (lit, []) := by
  have hcut := cut_append hlit (t := []) (by simp [globChunk.cut])
  rwa [List.append_nil] at hcut

theorem beq_star_of_hasMeta {b : UInt8} {p : Text} (h : hasMeta (b :: p) = false) :
    (b == 0x2A) = false :=
  beq_eq_false_iff_ne.mpr ((hasMeta_cons b p).mp h).1.1

/-- A chunk goes on up to the next star. -/
theorem globChunk_append_star {lead : Text} (hlead : hasMeta lead = false) (hne : lead ≠ [])
    (rest : Text) : globChunk (lead ++ star :: rest) = (false, lead, star :: rest) := by
  cases lead with
  | nil => exact absurd rfl hne
  | cons b lead =>
    have hcut := cut_append hlead (t := star :: rest) (by simp [globChunk.cut, star])
    rw [List.cons_append] at hcut ⊢
    simp [globChunk, beq_star_of_hasMeta hlead, hcut]

/-- A literal text is a single chunk. -/
theorem globChunk_literal {lit : Text} (hlit : hasMeta lit = false) :
    globChunk lit = (false, lit, []) := by
  cases lit with
  | nil => simp [globChunk, globChunk.cut]
  | cons b lit => simp [globChunk, beq_star_of_hasMeta hlit, cut_literal hlit]

/-- After a star, a literal text is the last chunk. -/
theorem globChunk_star_literal {lit : Text} (hlit : hasMeta lit = false) :
    globChunk (star :: lit) = (true, lit, []) := by
  have hdrop : (star :: lit).dropWhile (· == 0x2A) = lit := by
    cases lit with
    | nil => rfl
    | cons b lit => simp [star, beq_star_of_hasMeta hlit]
  unfold globChunk
  simp only [hdrop, cut_literal hlit]
  rfl

/-- Every byte of a literal is a piece that matches itself. -/
theorem globPieces_literal {lit : Text} (hlit : hasMeta lit = false) {fuel : Nat}
    (hfuel : lit.length ≤ fuel) : globPieces fuel lit = some (lit.map .byte) := by
  induction lit generalizing fuel with
  | nil => simp [globPieces]
  | cons b lit ih =>
    obtain ⟨⟨-, hany, hopen, hslash⟩, hlit⟩ := (hasMeta_cons b lit).mp hlit
    cases fuel with
    | zero => exact absurd hfuel (by simp)
    | succ fuel =>
      have hnext := ih hlit (Nat.le_of_succ_le_succ hfuel)
      simp [globPieces, hany, hopen, hslash, hnext]

/-! ## Literal matches -/

/-- Byte pieces match at the start of a name exactly if the name starts with these bytes. -/
theorem matchPieces_bytes (lit name : Text) :
    matchPieces (lit.map .byte) name = Text.stripLead? lit name := by
  induction lit generalizing name with
  | nil => simp [matchPieces, Text.stripLead?]
  | cons b lit ih =>
    cases name with
    | nil => simp [matchPieces, Text.stripLead?]
    | cons c name =>
      have hnext := ih name
      rw [Text.stripLead?] at hnext
      simp only [List.map_cons, matchPieces, hnext, Text.stripLead?, List.isPrefixOf_cons_cons]
      by_cases hbc : b = c
      · simp [hbc]
      · simp [hbc, Ne.symm hbc]

theorem stripLead?_self (t : Text) : Text.stripLead? t t = some [] :=
  Text.stripLead?_eq_some_iff.mpr (List.append_nil t).symm

theorem isSuffixOf_cons_of_ne {lit name : Text} {b : UInt8} (h : lit ≠ b :: name) :
    lit.isSuffixOf (b :: name) = lit.isSuffixOf name := by
  rw [Bool.eq_iff_iff, List.isSuffixOf_iff_suffix, List.isSuffixOf_iff_suffix,
    List.suffix_cons_iff, or_iff_right h]

theorem isSuffixOf_nil {lit : Text} (hne : lit ≠ []) : lit.isSuffixOf [] = false := by
  rw [← Bool.not_eq_true, List.isSuffixOf_iff_suffix, List.suffix_nil]
  exact hne

/-- What stands at the start of a name and not at its end leaves something over. -/
theorem stripLead?_of_ne {lit name : Text} (h : lit ≠ name) :
    Text.stripLead? lit name = none ∨ ∃ b t, Text.stripLead? lit name = some (b :: t) := by
  cases hlead : Text.stripLead? lit name with
  | none => exact .inl rfl
  | some t =>
    cases t with
    | nil =>
      have heq := Text.stripLead?_eq_some_iff.mp hlead
      rw [List.append_nil] at heq
      exact absurd heq.symm h
    | cons b t => exact .inr ⟨b, t, rfl⟩

/-- After its first byte, a name ends with the last chunk of a pattern or does not match. -/
theorem matchLater_bytes {lit : Text} (hne : lit ≠ []) {b : UInt8} {name : Text}
    (hname : separator ∉ b :: name) :
    matchLater (lit.map .byte) true (b :: name) =
      if lit.isSuffixOf name then some [] else none := by
  induction name generalizing b with
  | nil =>
    have hb : (b == separator) = false :=
      beq_eq_false_iff_ne.mpr fun h => hname (h ▸ List.mem_cons_self)
    rcases stripLead?_of_ne hne with hlead | ⟨c, t, hlead⟩
    · simp [matchLater, hb, matchPieces_bytes, hlead, isSuffixOf_nil hne]
    · simp [matchLater, hb, matchPieces_bytes, hlead, isSuffixOf_nil hne]
  | cons c name ih =>
    have hb : (b == separator) = false :=
      beq_eq_false_iff_ne.mpr fun h => hname (h ▸ List.mem_cons_self)
    have hrest := ih (b := c) fun h => hname (List.mem_cons_of_mem b h)
    rw [matchLater, hb, matchPieces_bytes]
    by_cases heq : lit = c :: name
    · rw [heq, stripLead?_self]
      simp
    · -- a match that leaves something over does not count, since the chunk is the last one
      rw [isSuffixOf_cons_of_ne heq]
      rcases stripLead?_of_ne heq with hlead | ⟨d, t, hlead⟩
      · simp [hlead, hrest]
      · simp [hlead, hrest]

/-! ## Patterns -/

/-- A star before a literal is a pattern without a fault. -/
theorem isWellFormed_star_literal {lit : Text} (hlit : hasMeta lit = false) (fuel : Nat) :
    isWellFormed fuel (star :: lit) = true := by
  cases fuel with
  | zero => simp [isWellFormed]
  | succ fuel =>
    simp [isWellFormed, globChunk_star_literal hlit, globPieces_literal hlit (Nat.le_refl _)]

/-- In a pattern without a fault, the match is all that counts. -/
theorem glob_of_isWellFormed {pattern name : Text} {b : Bool}
    (hwell : isWellFormed pattern.length pattern = true)
    (hfrom : globFrom pattern.length pattern name = .ok b) : glob pattern name = .ok b := by
  cases b <;> simp [glob, hfrom, hwell]

/-- A literal text matches itself and nothing else. -/
theorem glob_literal {lit name : Text} (hlit : hasMeta lit = false) :
    glob lit name = .ok (lit == name) := by
  cases lit with
  | nil => cases name <;> simp [glob, globFrom, isWellFormed]
  | cons b lit =>
    have hpieces := globPieces_literal hlit (Nat.le_refl _)
    refine glob_of_isWellFormed ?_ ?_
    · rw [List.length_cons, isWellFormed.eq_3 _ _ (by simp), globChunk_literal hlit]
      simp only [hpieces, isWellFormed, Option.isSome_some, Bool.and_self]
    · rw [List.length_cons, globFrom.eq_3 _ _ _ (by simp), globChunk_literal hlit]
      simp only [hpieces, matchPieces_bytes]
      by_cases heq : b :: lit = name
      · rw [heq, stripLead?_self]
        simp [← heq, globFrom]
      · rcases stripLead?_of_ne heq with hlead | ⟨c, t, hlead⟩ <;> simp [hlead, heq]

/-- A literal matches itself only. -/
theorem globs_literal {lit name : Text} (hlit : hasMeta lit = false) :
    globs lit name = true ↔ lit = name := by
  rw [globs, glob_literal hlit, beq_iff_eq]

/-- A star in front of a literal text matches the names that end with it. -/
theorem glob_star_literal {lit name : Text} (hlit : hasMeta lit = false) (hne : lit ≠ [])
    (hname : separator ∉ name) : glob (star :: lit) name = .ok (Text.endsWith name lit) := by
  refine glob_of_isWellFormed (isWellFormed_star_literal hlit _) ?_
  have hempty : lit.isEmpty = false := by simpa using hne
  rw [List.length_cons, globFrom.eq_3 _ _ _ (by simp), globChunk_star_literal hlit]
  simp only [globPieces_literal hlit (Nat.le_refl _), matchPieces_bytes, hempty, Bool.and_false,
    Bool.false_eq_true, ↓reduceIte, List.isEmpty_nil, Bool.not_true, Bool.or_false]
  have hdone : globFrom lit.length [] [] = .ok true := by simp [globFrom]
  by_cases heq : lit = name
  · rw [heq, stripLead?_self]
    simp [← heq, hdone, Text.endsWith]
  · cases name with
    | nil =>
      rcases stripLead?_of_ne heq with hlead | ⟨c, t, hlead⟩
      · simp [hlead, matchLater, Text.endsWith, isSuffixOf_nil hne]
      · simp [hlead, matchLater, Text.endsWith, isSuffixOf_nil hne]
    | cons b name =>
      rw [Text.endsWith, isSuffixOf_cons_of_ne heq, matchLater_bytes hne hname]
      cases lit.isSuffixOf name with
      | true => rcases stripLead?_of_ne heq with hlead | ⟨c, t, hlead⟩ <;> simp [hlead, hdone]
      | false => rcases stripLead?_of_ne heq with hlead | ⟨c, t, hlead⟩ <;> simp [hlead]

/-- A pattern that is literal up to its star is not malformed. -/
theorem glob_literal_star {lead lit : Text} (hlead : hasMeta lead = false)
    (hlit : hasMeta lit = false) (hne : lit ≠ []) :
    ∃ b, glob (lead ++ star :: lit) [] = .ok b := by
  by_cases hlead' : lead = []
  · subst hlead'
    exact ⟨_, glob_star_literal hlit hne List.not_mem_nil⟩
  · obtain ⟨fuel, hfuel⟩ : ∃ fuel, (lead ++ star :: lit).length = fuel + 1 :=
      ⟨lead.length + lit.length, by simp; omega⟩
    have hchunk := globChunk_append_star hlead hlead' lit
    have hpieces := globPieces_literal hlead (Nat.le_refl _)
    have hwell : isWellFormed (fuel + 1) (lead ++ star :: lit) = true := by
      rw [isWellFormed.eq_3 _ _ (by simp), hchunk]
      simp [hpieces, isWellFormed_star_literal hlit]
    have hfrom : globFrom (fuel + 1) (lead ++ star :: lit) [] = .ok false := by
      rw [globFrom.eq_3 _ _ _ (by simp), hchunk]
      have hlead : Text.stripLead? lead [] = none := by
        rcases stripLead?_of_ne hlead' with h | ⟨b, t, h⟩
        · exact h
        · exact absurd (Text.stripLead?_eq_some_iff.mp h) (by simp)
      simp [hpieces, matchPieces_bytes, hlead]
    exact ⟨false, glob_of_isWellFormed (by rw [hfuel]; exact hwell) (by rw [hfuel]; exact hfrom)⟩

end CaseCover.Path
