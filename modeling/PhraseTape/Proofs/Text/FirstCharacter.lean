import PhraseTape.Text.CellText

/-!
# The first character of some bytes

Bytes either begin with the UTF-8 form of a character, which is then read, or with something that
is not well-formed, of which a replacement character is made: a byte that begins no character, a
form that is cut short or longer than necessary, a surrogate, or a code point past the last one.
There is no third possibility. So a cell that is filled from a line is known as soon as the first
character of the line is known, or that there is none.

## Main definitions

* `FirstCharacter` : what some bytes are worth, by the character at their front.

## Main results

* `Utf8.encode_oneByte`, `Utf8.encode_twoBytes`, `Utf8.encode_threeBytes`, `Utf8.encode_fourBytes` :
  the bytes that the decoder takes for a character are the UTF-8 form of that character.
* `Utf8.exists_isPrefix_of_next_ne` : whatever is not replaced is well-formed.
* `firstCharacter_iff` : the cell that is filled from some bytes, by their first character.
-/

namespace PhraseTape

namespace Utf8

/-! ### Bytes that are put together -/

theorem toNat_val_ofNat {v : Nat} (h : v.isValidChar) : (Char.ofNat v).val.toNat = v := by
  rw [Char.ofNat, dif_pos h]
  rfl

/-- What the range of the second byte excludes. -/
theorem second_bounds {first second : Nat}
    (h : leastSecond first ≤ second ∧ second ≤ greatestSecond first) :
    (0x80 ≤ second ∧ second ≤ 0xbf) ∧ (first = 0xe0 → 0xa0 ≤ second) ∧
      (first = 0xed → second ≤ 0x9f) ∧ (first = 0xf0 → 0x90 ≤ second) ∧
      (first = 0xf4 → second ≤ 0x8f) := by
  unfold leastSecond greatestSecond at h
  grind

/-- A byte below `0x80` is a character. -/
theorem encode_oneByte {a : UInt8} (ha : a.toNat < 0x80) :
    String.utf8EncodeChar (Char.ofNat a.toNat) = [a] := by
  have hv : (Char.ofNat a.toNat).val.toNat = a.toNat := toNat_val_ofNat (.inl (by omega))
  unfold String.utf8EncodeChar
  simp only [hv]
  rw [if_pos (by omega), UInt8.ofNat_toNat]

/-- The form of two bytes, which is not longer than necessary. -/
theorem encode_twoBytes {a b : UInt8} (ha : 0xc2 ≤ a.toNat) (ha' : a.toNat < 0xe0)
    (hb : 0x80 ≤ b.toNat ∧ b.toNat ≤ 0xbf) :
    String.utf8EncodeChar (Char.ofNat (a.toNat % 32 * 64 + b.toNat % 64)) = [a, b] := by
  generalize hw : a.toNat % 32 * 64 + b.toNat % 64 = w
  have hv : (Char.ofNat w).val.toNat = w := toNat_val_ofNat (.inl (by omega))
  have h₁ : w / 64 % 32 + 0xc0 = a.toNat := by omega
  have h₂ : w % 64 + 0x80 = b.toNat := by omega
  unfold String.utf8EncodeChar
  simp only [hv]
  rw [if_neg (by omega), if_pos (by omega), h₁, h₂, UInt8.ofNat_toNat, UInt8.ofNat_toNat]

/-- The form of three bytes, which is not longer than necessary and no surrogate. -/
theorem encode_threeBytes {a b c : UInt8} (ha : 0xe0 ≤ a.toNat) (ha' : a.toNat < 0xf0)
    (hb : leastSecond a.toNat ≤ b.toNat ∧ b.toNat ≤ greatestSecond a.toNat)
    (hc : 0x80 ≤ c.toNat ∧ c.toNat ≤ 0xbf) :
    String.utf8EncodeChar
      (Char.ofNat ((a.toNat % 16 * 64 + b.toNat % 64) * 64 + c.toNat % 64)) = [a, b, c] := by
  obtain ⟨hb, hlong, hsurrogate, -, -⟩ := second_bounds hb
  generalize hw : (a.toNat % 16 * 64 + b.toNat % 64) * 64 + c.toNat % 64 = w
  have hvalid : w.isValidChar := by
    unfold Nat.isValidChar
    omega
  have hv : (Char.ofNat w).val.toNat = w := toNat_val_ofNat hvalid
  have h₁ : w / 4096 % 16 + 0xe0 = a.toNat := by omega
  have h₂ : w / 64 % 64 + 0x80 = b.toNat := by omega
  have h₃ : w % 64 + 0x80 = c.toNat := by omega
  unfold String.utf8EncodeChar
  simp only [hv]
  rw [if_neg (by omega), if_neg (by omega), if_pos (by omega), h₁, h₂, h₃, UInt8.ofNat_toNat,
    UInt8.ofNat_toNat, UInt8.ofNat_toNat]

/-- The form of four bytes, which is not longer than necessary and not past the last code point. -/
theorem encode_fourBytes {a b c d : UInt8} (ha : 0xf0 ≤ a.toNat) (ha' : a.toNat < 0xf5)
    (hb : leastSecond a.toNat ≤ b.toNat ∧ b.toNat ≤ greatestSecond a.toNat)
    (hc : 0x80 ≤ c.toNat ∧ c.toNat ≤ 0xbf) (hd : 0x80 ≤ d.toNat ∧ d.toNat ≤ 0xbf) :
    String.utf8EncodeChar
      (Char.ofNat (((a.toNat % 8 * 64 + b.toNat % 64) * 64 + c.toNat % 64) * 64 + d.toNat % 64)) =
        [a, b, c, d] := by
  obtain ⟨hb, -, -, hlong, hpast⟩ := second_bounds hb
  generalize hw : ((a.toNat % 8 * 64 + b.toNat % 64) * 64 + c.toNat % 64) * 64 + d.toNat % 64 = w
  have hvalid : w.isValidChar := by
    unfold Nat.isValidChar
    omega
  have hv : (Char.ofNat w).val.toNat = w := toNat_val_ofNat hvalid
  have h₁ : w / 262144 % 8 + 0xf0 = a.toNat := by omega
  have h₂ : w / 4096 % 64 + 0x80 = b.toNat := by omega
  have h₃ : w / 64 % 64 + 0x80 = c.toNat := by omega
  have h₄ : w % 64 + 0x80 = d.toNat := by omega
  unfold String.utf8EncodeChar
  simp only [hv]
  rw [if_neg (by omega), if_neg (by omega), if_neg (by omega), h₁, h₂, h₃, h₄, UInt8.ofNat_toNat,
    UInt8.ofNat_toNat, UInt8.ofNat_toNat, UInt8.ofNat_toNat]

/-! ### What is read is well-formed -/

/-- A character that goes on and is not replaced has its next byte. -/
theorem exists_of_continued_ne {count low high bits : Nat} {bytes : List UInt8}
    (h : (continued (count + 1) low high bits bytes).1 ≠ replacement) :
    ∃ b rest, bytes = b :: rest ∧ (low ≤ b.toNat ∧ b.toNat ≤ high) ∧
      (continued count 0x80 0xbf (bits * 64 + b.toNat % 64) rest).1 ≠ replacement := by
  cases bytes with
  | nil => exact absurd rfl h
  | cons b rest =>
    rw [continued] at h
    split at h
    next hb => exact ⟨b, rest, rfl, hb, h⟩
    next => exact absurd rfl h

/-- The form of a character is at the front of itself. -/
theorem exists_isPrefix_of_encode {c : Char} {form : List UInt8}
    (h : String.utf8EncodeChar c = form) (rest : List UInt8) :
    ∃ c, String.utf8EncodeChar c <+: form ++ rest :=
  ⟨c, h ▸ List.prefix_append _ rest⟩

/-- **Whatever is not replaced is well-formed.** -/
theorem exists_isPrefix_of_next_ne {a : UInt8} {rest : List UInt8}
    (h : (next a rest).1 ≠ replacement) : ∃ c, String.utf8EncodeChar c <+: a :: rest := by
  rw [next, lead?] at h
  by_cases h₁ : a.toNat < 0x80
  · exact exists_isPrefix_of_encode (encode_oneByte h₁) rest
  rw [if_neg h₁] at h
  by_cases h₂ : a.toNat < 0xc2
  · rw [if_pos h₂] at h
    exact absurd rfl h
  rw [if_neg h₂] at h
  by_cases h₃ : a.toNat < 0xe0
  · rw [if_pos h₃] at h
    obtain ⟨b, rest, rfl, hb, -⟩ := exists_of_continued_ne h
    exact exists_isPrefix_of_encode (encode_twoBytes (by omega) h₃ (second_bounds hb).1) rest
  rw [if_neg h₃] at h
  by_cases h₄ : a.toNat < 0xf0
  · rw [if_pos h₄] at h
    obtain ⟨b, rest, rfl, hb, h⟩ := exists_of_continued_ne h
    obtain ⟨c, rest, rfl, hc, -⟩ := exists_of_continued_ne h
    exact exists_isPrefix_of_encode (encode_threeBytes (by omega) h₄ hb hc) rest
  rw [if_neg h₄] at h
  by_cases h₅ : a.toNat < 0xf5
  · rw [if_pos h₅] at h
    obtain ⟨b, rest, rfl, hb, h⟩ := exists_of_continued_ne h
    obtain ⟨c, rest, rfl, hc, h⟩ := exists_of_continued_ne h
    obtain ⟨d, rest, rfl, hd, -⟩ := exists_of_continued_ne h
    exact exists_isPrefix_of_encode (encode_fourBytes (by omega) h₅ hb hc hd) rest
  · rw [if_neg h₅] at h
    exact absurd rfl h

theorem next_of_forall_not_isPrefix {a : UInt8} {rest : List UInt8}
    (h : ∀ c, ¬ String.utf8EncodeChar c <+: a :: rest) : (next a rest).1 = replacement := by
  refine Decidable.of_not_not fun hne => ?_
  obtain ⟨c, hc⟩ := exists_isPrefix_of_next_ne hne
  exact h c hc

end Utf8

/-! ### Cells -/

/-- What some bytes are worth, the content of a line without its terminator: nothing is zero; a
character is the first of its UTF-16 units modulo `256`, which is the character itself or its high
surrogate; and bytes that begin with no character are worth the replacement character `U+FFFD`,
modulo `256`. -/
inductive FirstCharacter : List UInt8 → Nat → Prop
  | none : FirstCharacter [] 0
  | basic {c : Char} (hc : c.toNat < 0x10000) (behind : List UInt8) :
      FirstCharacter (String.utf8EncodeChar c ++ behind) (c.toNat % 256)
  | supplementary {c : Char} (hc : 0x10000 ≤ c.toNat) (behind : List UInt8) :
      FirstCharacter (String.utf8EncodeChar c ++ behind)
        ((0xd800 + (c.toNat - 0x10000) / 1024) % 256)
  | malformed {content : List UInt8} (hne : content ≠ [])
      (h : ∀ c, ¬ String.utf8EncodeChar c <+: content) : FirstCharacter content 0xfd

theorem Cell.toNat_ofInt_natCast (n : Nat) : (ofInt n).toNat = n % 256 := by
  have h := toNat_ofInt n
  omega

/-- A cell is filled with what the bytes are worth. -/
theorem FirstCharacter.ofLine_eq {content : List UInt8} {v : Nat} (h : FirstCharacter content v) :
    (Cell.ofLine (Utf8.decode content)).toNat = v := by
  cases h with
  | none => rw [Utf8.decode_nil]; rfl
  | basic hc behind =>
    rw [Utf8.decode_encodeChar_append, Cell.ofLine, Cell.toNat_ofInt_natCast, leadingUnit,
      if_pos hc]
  | supplementary hc behind =>
    rw [Utf8.decode_encodeChar_append, Cell.ofLine, Cell.toNat_ofInt_natCast, leadingUnit,
      if_neg (Nat.not_lt.2 hc)]
  | malformed hne h =>
    obtain ⟨b, rest, rfl⟩ := List.exists_cons_of_ne_nil hne
    rw [Utf8.decode_cons, Utf8.next_of_forall_not_isPrefix h]
    rfl

/-- Some bytes are worth something. -/
theorem exists_firstCharacter (content : List UInt8) : ∃ v, FirstCharacter content v := by
  by_cases hnil : content = []
  · exact ⟨0, hnil ▸ .none⟩
  by_cases h : ∃ c, String.utf8EncodeChar c <+: content
  · obtain ⟨c, behind, rfl⟩ := h
    rcases Nat.lt_or_ge c.toNat 0x10000 with hc | hc
    · exact ⟨_, .basic hc behind⟩
    · exact ⟨_, .supplementary hc behind⟩
  · exact ⟨_, .malformed hnil (not_exists.1 h)⟩

/-- **The cell that is filled from some bytes, by their first character.** -/
theorem firstCharacter_iff {content : List UInt8} {v : Nat} :
    FirstCharacter content v ↔ (Cell.ofLine (Utf8.decode content)).toNat = v := by
  refine ⟨FirstCharacter.ofLine_eq, ?_⟩
  rintro rfl
  obtain ⟨v, hv⟩ := exists_firstCharacter content
  rwa [hv.ofLine_eq]

end PhraseTape
