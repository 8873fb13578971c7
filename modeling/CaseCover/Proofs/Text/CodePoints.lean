import CaseCover.Proofs.Text.Characters

/-!
# Code points in bytes

A code point is written in one to four bytes. A character that is read from valid bytes gives these
bytes back (`ofCode_code_leading`), so a part of a text that is rebuilt from its code points is the
same unless a byte in it had to be replaced (`flatMap_ofCode_eq`). ASCII bytes are characters of
their own (`characters_ascii_append`), and the digits of a number are among them.
-/

namespace CaseCover.Text

/-! ## The bytes of a code point -/

/-- The bytes of a code point hold its bits, six in each byte behind the first one. -/
theorem ofCode_eq {n : Nat} (h : n.isValidChar) :
    ofCode n =
      if n ≤ 0x7F then [UInt8.ofNat n]
      else if n ≤ 0x7FF then [UInt8.ofNat (n / 64 % 32 + 192), UInt8.ofNat (n % 64 + 128)]
      else if n ≤ 0xFFFF then
        [UInt8.ofNat (n / 4096 % 16 + 224), UInt8.ofNat (n / 64 % 64 + 128),
          UInt8.ofNat (n % 64 + 128)]
      else
        [UInt8.ofNat (n / 262144 % 8 + 240), UInt8.ofNat (n / 4096 % 64 + 128),
          UInt8.ofNat (n / 64 % 64 + 128), UInt8.ofNat (n % 64 + 128)] := by
  have hchar : Char.ofNat n = Char.ofNatAux n h := dif_pos h
  rw [ofCode, if_pos h, hchar]
  rfl

theorem ofNat_eq_of_toNat {b : UInt8} {n : Nat} (h : n = b.toNat) : UInt8.ofNat n = b := by
  rw [h, UInt8.ofNat_toNat]

/-- What the second byte of a character may be, in numbers. -/
theorem second_bounds {b c : UInt8} (h : (secondBounds b).1 ≤ c ∧ c ≤ (secondBounds b).2) :
    (128 ≤ c.toNat ∧ c.toNat ≤ 191) ∧ (b.toNat = 0xE0 → 160 ≤ c.toNat) ∧
      (b.toNat = 0xED → c.toNat ≤ 159) ∧ (b.toNat = 0xF0 → 144 ≤ c.toNat) ∧
      (b.toNat = 0xF4 → c.toNat ≤ 143) := by
  simp only [UInt8.le_iff_toNat_le] at h
  unfold secondBounds at h
  simp only [← UInt8.toNat_inj] at h
  repeat' split at h
  all_goals
    simp only [UInt8.reduceToNat] at *
    omega

theorem isTail_bounds {b : UInt8} (h : isTail b = true) : 128 ≤ b.toNat ∧ b.toNat ≤ 191 := by
  simpa [isTail, UInt8.le_iff_toNat_le] using h

/-- A code point of two bytes is written as it was read. -/
theorem ofCode_two {b c : UInt8} (hb : 0xC2 ≤ b ∧ b ≤ 0xDF)
    (hc : (secondBounds b).1 ≤ c ∧ c ≤ (secondBounds b).2) :
    ofCode (b.toNat % 32 * 64 + tailBits c) = [b, c] := by
  obtain ⟨hc, -⟩ := second_bounds hc
  simp only [UInt8.le_iff_toNat_le, UInt8.reduceToNat] at hb
  unfold tailBits
  rw [ofCode_eq (.inl (by omega)), if_neg (by omega), if_pos (by omega),
    ofNat_eq_of_toNat (b := b) (by omega), ofNat_eq_of_toNat (b := c) (by omega)]

/-- So is one of three bytes. -/
theorem ofCode_three {b c d : UInt8} (hb : 0xE0 ≤ b ∧ b ≤ 0xEF)
    (hc : (secondBounds b).1 ≤ c ∧ c ≤ (secondBounds b).2) (hd : isTail d = true) :
    ofCode ((b.toNat % 16 * 64 + tailBits c) * 64 + tailBits d) = [b, c, d] := by
  obtain ⟨hc, hoverlong, hsurrogate, -⟩ := second_bounds hc
  have hd := isTail_bounds hd
  simp only [UInt8.le_iff_toNat_le, UInt8.reduceToNat] at hb
  unfold tailBits
  rw [ofCode_eq (by unfold Nat.isValidChar; omega), if_neg (by omega), if_neg (by omega),
    if_pos (by omega), ofNat_eq_of_toNat (b := b) (by omega), ofNat_eq_of_toNat (b := c) (by omega),
    ofNat_eq_of_toNat (b := d) (by omega)]

/-- So is one of four bytes. -/
theorem ofCode_four {b c d e : UInt8} (hb : 0xF0 ≤ b ∧ b ≤ 0xF4)
    (hc : (secondBounds b).1 ≤ c ∧ c ≤ (secondBounds b).2) (hd : isTail d = true)
    (he : isTail e = true) :
    ofCode (((b.toNat % 8 * 64 + tailBits c) * 64 + tailBits d) * 64 + tailBits e) =
      [b, c, d, e] := by
  obtain ⟨hc, -, -, hoverlong, hbeyond⟩ := second_bounds hc
  have hd := isTail_bounds hd
  have he := isTail_bounds he
  simp only [UInt8.le_iff_toNat_le, UInt8.reduceToNat] at hb
  unfold tailBits
  rw [ofCode_eq (by unfold Nat.isValidChar; omega), if_neg (by omega), if_neg (by omega),
    if_neg (by omega), ofNat_eq_of_toNat (b := b) (by omega), ofNat_eq_of_toNat (b := c) (by omega),
    ofNat_eq_of_toNat (b := d) (by omega), ofNat_eq_of_toNat (b := e) (by omega)]

theorem ofCode_one {b : UInt8} (hb : b < 0x80) : ofCode b.toNat = [b] := by
  have hb : b.toNat < 128 := hb
  rw [ofCode_eq (.inl (by omega)), if_pos (by omega), UInt8.ofNat_toNat]

/-- A character that replaces nothing has the bytes of its code point. -/
theorem ofCode_code_leading {b : UInt8} {rest : Text} (h : (leading b rest).code ≠ replacement) :
    ofCode (leading b rest).code = (leading b rest).bytes := by
  generalize hc : leading b rest = c at h ⊢
  unfold leading at hc
  dsimp only at hc
  split at hc
  · next hb => exact hc ▸ ofCode_one hb
  split at hc
  · next hb =>
    split at hc
    · split at hc
      · next hsecond => exact hc ▸ ofCode_two hb (by simpa using hsecond)
      · exact absurd (hc ▸ rfl) h
    · exact absurd (hc ▸ rfl) h
  split at hc
  · next hb =>
    split at hc
    · split at hc
      · next hsecond =>
        obtain ⟨hsecond, hthird⟩ := Bool.and_eq_true_iff.mp hsecond
        exact hc ▸ ofCode_three hb (by simpa using hsecond) hthird
      · exact absurd (hc ▸ rfl) h
    · exact absurd (hc ▸ rfl) h
  split at hc
  · next hb =>
    split at hc
    · split at hc
      · next hsecond =>
        obtain ⟨hsecond, hfourth⟩ := Bool.and_eq_true_iff.mp hsecond
        obtain ⟨hsecond, hthird⟩ := Bool.and_eq_true_iff.mp hsecond
        exact hc ▸ ofCode_four hb (by simpa using hsecond) hthird hfourth
      · exact absurd (hc ▸ rfl) h
    · exact absurd (hc ▸ rfl) h
  · exact absurd (hc ▸ rfl) h

/-! ## The characters of a text -/

/-- Every character of a text was read off the start of some bytes. -/
theorem characters_eq_leading {t : Text} {c : Character} (h : c ∈ characters t) :
    ∃ b rest, c = leading b rest := by
  induction hn : t.length using Nat.strong_induction_on generalizing t with
  | h n ih =>
    cases t with
    | nil => cases h
    | cons b rest =>
      rw [characters_cons, List.mem_cons] at h
      rcases h with rfl | h
      · exact ⟨b, rest, rfl⟩
      · refine ih _ ?_ h rfl
        rw [← hn, List.length_drop, List.length_cons]
        omega

/-- Characters of a text that replace nothing have the bytes of their code points. -/
theorem flatMap_ofCode_eq {t : Text} {cs : List Character} (hcs : cs ⊆ characters t)
    (h : ∀ c ∈ cs, c.code ≠ replacement) :
    (cs.map (·.code)).flatMap ofCode = ofCharacters cs := by
  have hbytes : cs.map (fun c => ofCode c.code) = cs.map (·.bytes) :=
    List.map_congr_left fun c hc => by
      obtain ⟨b, rest, rfl⟩ := characters_eq_leading (hcs hc)
      exact ofCode_code_leading (h _ hc)
  rw [List.flatMap_map, List.flatMap_def, hbytes, ofCharacters, List.flatMap_def]

theorem bytes_ne_nil {t : Text} {c : Character} (h : c ∈ characters t) : c.bytes ≠ [] := by
  obtain ⟨b, rest, rfl⟩ := characters_eq_leading h
  obtain ⟨tail, hbytes, -⟩ := leading_bytes b rest
  rw [hbytes]
  exact List.cons_ne_nil _ _

/-- ASCII bytes are characters of their own, whatever follows. -/
theorem characters_ascii_append {s : Text} (hs : ∀ b ∈ s, b < 0x80) (t : Text) :
    characters (s ++ t) = s.map (fun b => ⟨b.toNat, [b]⟩) ++ characters t := by
  induction s with
  | nil => rfl
  | cons b s ih =>
    obtain ⟨hb, hs⟩ := List.forall_mem_cons.mp hs
    rw [List.cons_append, characters_cons, leading_ascii hb, List.map_cons, List.cons_append,
      ← ih hs]
    rfl

/-! ## Digits -/

theorem isDigit_of_mem_ofNat {n : Nat} {b : UInt8} (h : b ∈ ofNat n) : isDigit b = true := by
  obtain ⟨c, hc, hb⟩ := List.mem_flatMap.mp h
  have hrepr : c ∈ Nat.toDigits 10 n := Nat.toList_repr ▸ hc
  have hdigit := Nat.isDigit_of_mem_toDigits (by decide) (by decide) hrepr
  have hbounds : 48 ≤ c.toNat ∧ c.toNat ≤ 57 := by
    simpa [Char.isDigit, UInt32.le_iff_toNat_le] using hdigit
  have hone : String.utf8EncodeChar c = [UInt8.ofNat c.toNat] :=
    if_pos (Nat.le_trans hbounds.2 (by decide))
  rw [hone, List.mem_singleton] at hb
  rw [hb, isDigit, Bool.and_eq_true, decide_eq_true_iff, decide_eq_true_iff, UInt8.le_iff_toNat_le,
    UInt8.le_iff_toNat_le, UInt8.toNat_ofNat']
  simp only [UInt8.reduceToNat]
  omega

theorem not_mem_ofInt {b : UInt8} (hdigit : isDigit b = false) (hminus : b ≠ 0x2D) (n : Int) :
    b ∉ ofInt n := by
  have hnat (m : Nat) : b ∉ ofNat m := fun h => by
    rw [isDigit_of_mem_ofNat h] at hdigit
    cases hdigit
  cases n with
  | ofNat m => exact hnat m
  | negSucc m =>
    rw [ofInt, List.mem_cons, not_or]
    exact ⟨hminus, hnat (m + 1)⟩

end CaseCover.Text
