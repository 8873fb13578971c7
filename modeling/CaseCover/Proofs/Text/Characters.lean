import CaseCover.Text.Space
import Mathlib.Data.List.DropRight

/-!
# Characters of parts of a text

A text is read character by character from the left, and what a byte starts depends on the bytes
behind it, but on no more of them than the character takes (`leading_append`). So a text that is cut
between two characters has the characters of its parts (`characters_parts`), a text in which no byte
is replaced can be put in front of any other (`characters_append`), and an ASCII byte is always a
character of its own (`characters_append_ascii`).

White space is therefore taken away from one end of a text at a time, and not beyond a byte that is
no white space. So it does not matter for the trimmed pieces between separators whether the text is
trimmed before it is cut (`map_trim_splitOn_trim`).
-/

namespace CaseCover.Text

theorem characters_cons (b : UInt8) (rest : Text) :
    characters (b :: rest) =
      leading b rest :: characters (rest.drop ((leading b rest).bytes.length - 1)) := by
  rw [characters, charactersFrom, charactersFrom_eq_drop]
  rfl

/-- Nothing is lost when a text is read as characters. -/
theorem ofCharacters_characters (t : Text) : ofCharacters (characters t) = t :=
  flatMap_bytes_characters t

theorem ofCharacters_append (cs ds : List Character) :
    ofCharacters (cs ++ ds) = ofCharacters cs ++ ofCharacters ds :=
  List.flatMap_append

/-! ## One character -/

theorem leading_ascii {b : UInt8} (hb : b < 0x80) (rest : Text) :
    leading b rest = ⟨b.toNat, [b]⟩ := by
  unfold leading
  exact if_pos hb

/-- The bytes of a character behind its first one are no ASCII bytes. -/
theorem le_of_mem_tail {b c : UInt8} {rest : Text} (h : c ∈ (leading b rest).bytes.tail) :
    0x80 ≤ c := by
  unfold leading at h
  grind [secondBounds, isTail]

/-- A character depends only on the bytes that it takes. -/
theorem leading_append {b : UInt8} {rest more : Text}
    (h : (leading b (rest ++ more)).bytes.length ≤ rest.length + 1) :
    leading b (rest ++ more) = leading b rest := by
  by_cases h₁ : b < 0x80
  · simp only [leading, if_pos h₁]
  by_cases h₂ : 0xC2 ≤ b ∧ b ≤ 0xDF
  · simp only [leading, if_neg h₁, if_pos h₂] at h ⊢
    match rest with
    | [] => cases more <;> grind
    | c :: rest => rfl
  by_cases h₃ : 0xE0 ≤ b ∧ b ≤ 0xEF
  · simp only [leading, if_neg h₁, if_neg h₂, if_pos h₃] at h ⊢
    match rest with
    | [] => rcases more with _ | ⟨c, _ | ⟨d, more⟩⟩ <;> grind
    | [c] => cases more <;> grind
    | c :: d :: rest => rfl
  by_cases h₄ : 0xF0 ≤ b ∧ b ≤ 0xF4
  · simp only [leading, if_neg h₁, if_neg h₂, if_neg h₃, if_pos h₄] at h ⊢
    match rest with
    | [] => rcases more with _ | ⟨c, _ | ⟨d, _ | ⟨e, more⟩⟩⟩ <;> grind
    | [c] => rcases more with _ | ⟨d, _ | ⟨e, more⟩⟩ <;> grind
    | [c, d] => cases more <;> grind
    | c :: d :: e :: rest => rfl
  · simp only [leading, if_neg h₁, if_neg h₂, if_neg h₃, if_neg h₄]

/-- A character that replaces nothing is complete, whatever stands behind it. -/
theorem leading_append_of_code_ne {b : UInt8} {rest : Text}
    (h : (leading b rest).code ≠ replacement) (more : Text) :
    leading b (rest ++ more) = leading b rest := by
  by_cases h₁ : b < 0x80
  · simp only [leading, if_pos h₁]
  by_cases h₂ : 0xC2 ≤ b ∧ b ≤ 0xDF
  · simp only [leading, if_neg h₁, if_pos h₂] at h ⊢
    match rest with
    | [] => exact absurd rfl h
    | c :: rest => rfl
  by_cases h₃ : 0xE0 ≤ b ∧ b ≤ 0xEF
  · simp only [leading, if_neg h₁, if_neg h₂, if_pos h₃] at h ⊢
    match rest with
    | [] | [c] => exact absurd rfl h
    | c :: d :: rest => rfl
  by_cases h₄ : 0xF0 ≤ b ∧ b ≤ 0xF4
  · simp only [leading, if_neg h₁, if_neg h₂, if_neg h₃, if_pos h₄] at h ⊢
    match rest with
    | [] | [c] | [c, d] => exact absurd rfl h
    | c :: d :: e :: rest => rfl
  · simp only [leading, if_neg h₁, if_neg h₂, if_neg h₃, if_neg h₄]

/-! ## Parts of a text -/

/-- A text that is cut between two characters has the characters of its parts. -/
theorem characters_parts {t : Text} {cs ds : List Character} (h : characters t = cs ++ ds) :
    characters (ofCharacters cs) = cs ∧ characters (ofCharacters ds) = ds := by
  induction cs generalizing t with
  | nil =>
    rw [List.nil_append] at h
    rw [← h, ofCharacters_characters]
    exact ⟨rfl, rfl⟩
  | cons c cs ih =>
    cases t with
    | nil => cases h
    | cons b rest =>
      rw [characters_cons, List.cons_append, List.cons.injEq] at h
      obtain ⟨hc, hrest⟩ := h
      obtain ⟨hcs, hds⟩ := ih hrest
      refine ⟨?_, hds⟩
      obtain ⟨tail, hbytes, more, rfl⟩ := leading_bytes b rest
      have hlength : (leading b (tail ++ more)).bytes.length = tail.length + 1 := by
        rw [hbytes, List.length_cons]
      have hmore : more = ofCharacters cs ++ ofCharacters ds := by
        rw [← ofCharacters_append, ← hrest, ofCharacters_characters, hlength, Nat.add_sub_cancel,
          List.drop_left]
      -- the character takes `tail`, so that it is the same when the second part is not there
      have hleading : leading b (tail ++ ofCharacters cs) = c := by
        rw [← hc, hmore, ← List.append_assoc]
        refine (leading_append ?_).symm
        rw [List.append_assoc, ← hmore, hlength, List.length_append]
        omega
      have hjoin : ofCharacters (c :: cs) = b :: (tail ++ ofCharacters cs) := by
        rw [ofCharacters, List.flatMap_cons, ← hc, hbytes]
        rfl
      rw [hjoin, characters_cons, hleading, ← hc, hlength, Nat.add_sub_cancel, List.drop_left, hcs]

/-- Behind characters that replace nothing a text is read on its own. -/
theorem characters_append {s : Text} (h : ∀ c ∈ characters s, c.code ≠ replacement) (t : Text) :
    characters (s ++ t) = characters s ++ characters t := by
  induction hn : s.length using Nat.strong_induction_on generalizing s with
  | h n ih =>
    cases s with
    | nil => rfl
    | cons b rest =>
      rw [characters_cons, List.forall_mem_cons] at h
      obtain ⟨tail, hbytes, hprefix⟩ := leading_bytes b rest
      have hle := hprefix.length_le
      have hlength : (leading b rest).bytes.length - 1 ≤ rest.length := by
        rw [hbytes, List.length_cons]
        omega
      rw [List.cons_append, characters_cons, leading_append_of_code_ne h.1,
        List.drop_append_of_le_length hlength, characters_cons b rest, List.cons_append]
      refine congrArg _ (ih _ ?_ h.2 rfl)
      rw [← hn, List.length_cons, List.length_drop]
      omega

/-- A character in front of an ASCII byte ends before it. -/
theorem length_leading_le {a : UInt8} (ha : a < 0x80) (b : UInt8) (rest t : Text) :
    (leading b (rest ++ a :: t)).bytes.length ≤ rest.length + 1 := by
  obtain ⟨tail, hbytes, hprefix⟩ := leading_bytes b (rest ++ a :: t)
  rw [hbytes, List.length_cons]
  by_contra hlt
  have hover : rest ++ [a] <+: tail :=
    List.prefix_of_prefix_length_le ⟨t, by simp⟩ hprefix
      (by rw [List.length_append, List.length_singleton]; omega)
  have hmem : a ∈ (leading b (rest ++ a :: t)).bytes.tail := by
    rw [hbytes]
    exact hover.mem (by simp)
  exact absurd ha (UInt8.not_lt.mpr (le_of_mem_tail hmem))

/-- An ASCII byte is a character of its own, whatever stands before it. -/
theorem characters_append_ascii {a : UInt8} (ha : a < 0x80) (s t : Text) :
    characters (s ++ a :: t) = characters s ++ ⟨a.toNat, [a]⟩ :: characters t := by
  induction hn : s.length using Nat.strong_induction_on generalizing s with
  | h n ih =>
    cases s with
    | nil =>
      rw [List.nil_append, characters_cons, leading_ascii ha]
      rfl
    | cons b rest =>
      have hle := length_leading_le ha b rest t
      have hleading : leading b (rest ++ a :: t) = leading b rest := leading_append hle
      rw [hleading] at hle
      rw [List.cons_append, characters_cons, hleading, List.drop_append_of_le_length (by omega),
        characters_cons b rest, List.cons_append]
      refine congrArg _ (ih _ ?_ _ rfl)
      rw [← hn, List.length_cons, List.length_drop]
      omega

/-! ## Trimming -/

/-- The text without its trailing white space. -/
def trimRight (t : Text) : Text := ofCharacters ((characters t).rdropWhile Character.isSpace)

/-- The white space in front, as characters. -/
theorem characters_leadingSpace (t : Text) :
    characters (leadingSpace t) = (characters t).takeWhile Character.isSpace :=
  (characters_parts List.takeWhile_append_dropWhile.symm).1

/-- Trimming on the left drops characters of white space. -/
theorem characters_trimLeft (t : Text) :
    characters (trimLeft t) = (characters t).dropWhile Character.isSpace :=
  (characters_parts List.takeWhile_append_dropWhile.symm).2

theorem characters_trimRight (t : Text) :
    characters (trimRight t) = (characters t).rdropWhile Character.isSpace :=
  (characters_parts List.rdropWhile_append_rtakeWhile.symm).1

theorem suffix_trimLeft (t : Text) : trimLeft t <:+ t :=
  ⟨leadingSpace t, leadingSpace_append_trimLeft t⟩

/-- What is trimmed on the right is the white space at the end. -/
theorem trimRight_append_rtakeWhile (t : Text) :
    trimRight t ++ ofCharacters ((characters t).rtakeWhile Character.isSpace) = t := by
  rw [trimRight, ← ofCharacters_append, List.rdropWhile_append_rtakeWhile, ofCharacters_characters]

theorem prefix_trimRight (t : Text) : trimRight t <+: t := ⟨_, trimRight_append_rtakeWhile t⟩

theorem trim_eq (t : Text) : trim t = trimRight (trimLeft t) := by
  rw [trimRight, characters_trimLeft]
  rfl

theorem mem_of_mem_trim {t : Text} {b : UInt8} (h : b ∈ trim t) : b ∈ t := by
  rw [trim_eq] at h
  exact (suffix_trimLeft t).mem ((prefix_trimRight (trimLeft t)).mem h)

/-- Trimming on the left first makes no difference. -/
theorem trim_trimLeft (t : Text) : trim (trimLeft t) = trim t := by
  have h : trimLeft (trimLeft t) = trimLeft t := by
    rw [trimLeft, characters_trimLeft, List.dropWhile_idempotent]
    rfl
  rw [trim_eq, h, trim_eq]

/-- Trailing items of a kind do not matter where those of the kind are dropped on both sides. -/
theorem rdropWhile_dropWhile_rdropWhile {α : Type} (p : α → Bool) (l : List α) :
    ((l.rdropWhile p).dropWhile p).rdropWhile p = (l.dropWhile p).rdropWhile p := by
  have hdrop (l m : List α) (h : ∀ x ∈ m, p x = true) :
      (l ++ m).rdropWhile p = l.rdropWhile p := by
    have hm : m.reverse.dropWhile p = [] :=
      List.dropWhile_eq_nil_iff.mpr fun x hx => h x (List.mem_reverse.mp hx)
    simp [List.rdropWhile, List.dropWhile_append, hm]
  have htail (x : α) (h : x ∈ l.rtakeWhile p) : p x = true := List.mem_rtakeWhile_imp h
  conv_rhs => rw [← List.rdropWhile_append_rtakeWhile (p := p) (l := l), List.dropWhile_append]
  split
  · next hempty =>
    rw [List.isEmpty_iff.mp hempty, List.dropWhile_eq_nil_iff.mpr htail]
  · rw [hdrop _ _ htail]

theorem trim_trimRight (t : Text) : trim (trimRight t) = trim t := by
  have h (t : Text) : trim t = ofCharacters
      (((characters t).dropWhile Character.isSpace).rdropWhile Character.isSpace) := rfl
  rw [h, h, characters_trimRight, rdropWhile_dropWhile_rdropWhile]

section

variable {b : UInt8} (hb : b < 0x80) (hspace : isSpaceCode b.toNat = false)
include hb hspace

/-- Trimming on the left stops before a byte that is no white space. -/
theorem trimLeft_append (u v : Text) : trimLeft (u ++ b :: v) = trimLeft u ++ b :: v := by
  have hchar : Character.isSpace ⟨b.toNat, [b]⟩ = false := hspace
  have hv : ofCharacters (⟨b.toNat, [b]⟩ :: characters v) = b :: v := by
    rw [ofCharacters, List.flatMap_cons, flatMap_bytes_characters]
    rfl
  have hdrop : (characters u ++ ⟨b.toNat, [b]⟩ :: characters v).dropWhile Character.isSpace =
      (characters u).dropWhile Character.isSpace ++ ⟨b.toNat, [b]⟩ :: characters v := by
    rw [List.dropWhile_append]
    split
    · next hempty =>
      rw [List.isEmpty_iff.mp hempty, List.dropWhile_cons_of_neg (by simp [hchar])]
      rfl
    · rfl
  rw [trimLeft, characters_append_ascii hb, hdrop, ofCharacters_append, hv]
  rfl

theorem trimRight_append (u v : Text) : trimRight (u ++ b :: v) = u ++ b :: trimRight v := by
  have hchar : Character.isSpace ⟨b.toNat, [b]⟩ = false := hspace
  have hdrop : (characters u ++ ⟨b.toNat, [b]⟩ :: characters v).rdropWhile Character.isSpace =
      characters u ++ ⟨b.toNat, [b]⟩ :: (characters v).rdropWhile Character.isSpace := by
    rw [List.rdropWhile, List.reverse_append, List.reverse_cons, List.append_assoc,
      List.dropWhile_append]
    split
    · next hempty =>
      simp [List.rdropWhile, List.isEmpty_iff.mp hempty, hchar]
    · simp [List.rdropWhile]
  rw [trimRight, characters_append_ascii hb, hdrop, ofCharacters_append, ofCharacters_characters]
  rfl

/-- Trimming a text on the left does not change its trimmed pieces. -/
theorem map_trim_splitOn_trimLeft (t : Text) :
    (List.splitOn b (trimLeft t)).map trim = (List.splitOn b t).map trim := by
  have hnot (u : Text) (hu : b ∉ u) : b ∉ trimLeft u := fun h => hu ((suffix_trimLeft u).mem h)
  by_cases hmem : b ∈ t
  · obtain ⟨u, v, rfl, hu⟩ := List.eq_append_cons_of_mem hmem
    rw [trimLeft_append hb hspace, List.splitOn_append_cons_self_of_not_mem (hnot u hu),
      List.splitOn_append_cons_self_of_not_mem hu, List.map_cons, List.map_cons, trim_trimLeft]
  · rw [List.splitOn_eq_singleton hmem, List.splitOn_eq_singleton (hnot t hmem), List.map_singleton,
      List.map_singleton, trim_trimLeft]

theorem map_trim_splitOn_trimRight (t : Text) :
    (List.splitOn b (trimRight t)).map trim = (List.splitOn b t).map trim := by
  induction hn : t.length using Nat.strong_induction_on generalizing t with
  | h n ih =>
    by_cases hmem : b ∈ t
    · obtain ⟨u, v, rfl⟩ := List.append_of_mem hmem
      rw [trimRight_append hb hspace, List.splitOn_append_cons_self, List.splitOn_append_cons_self,
        List.map_append, List.map_append, ih v.length _ v rfl]
      rw [← hn, List.length_append, List.length_cons]
      omega
    · have hnot : b ∉ trimRight t := fun h => hmem ((prefix_trimRight t).mem h)
      rw [List.splitOn_eq_singleton hmem, List.splitOn_eq_singleton hnot, List.map_singleton,
        List.map_singleton, trim_trimRight]

/-- The trimmed pieces of a text are those of the trimmed text. -/
theorem map_trim_splitOn_trim (t : Text) :
    (splitOn [b] (trim t)).map trim = (splitOn [b] t).map trim := by
  rw [splitOn_singleton, splitOn_singleton, trim_eq, map_trim_splitOn_trimRight hb hspace,
    map_trim_splitOn_trimLeft hb hspace]

end

end CaseCover.Text
