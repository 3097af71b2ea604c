/-!
# UTF-8

Bytes are read as UTF-8 without ever failing. The first byte of a character says how many
continuation bytes follow and in which range the first of them lies; where the bytes break this
rule, the longest part that could still have been continued becomes one replacement character,
and reading goes on behind it. So a character that is not well-formed never takes a byte from the
one behind it.

## Main definitions

* `Utf8.Lead`, `Utf8.lead?` : what the first byte of a character says about the rest.
* `Utf8.next` : the character at the front of some bytes, and the bytes behind it.
* `Utf8.decode` : the characters of some bytes.

## Main results

* `Utf8.next_encode`, `Utf8.decode_encode` : well-formed characters are read as they were written.
-/

namespace PhraseTape.Utf8

/-- What the first byte of a character says about the bytes behind it. -/
structure Lead where
  /-- The number of continuation bytes. -/
  count : Nat
  /-- The bits of the code point that the first byte carries. -/
  bits : Nat
  deriving DecidableEq, Repr

/-- The meaning of a first byte. Continuation bytes, the bytes that would start a form that is
longer than necessary, and the bytes that would start a code point past the last one have none. -/
def lead? (first : Nat) : Option Lead :=
  if first < 0x80 then some ⟨0, first⟩
  else if first < 0xc2 then none
  else if first < 0xe0 then some ⟨1, first % 32⟩
  else if first < 0xf0 then some ⟨2, first % 16⟩
  else if first < 0xf5 then some ⟨3, first % 8⟩
  else none

/-- The least second byte behind a first byte. It excludes the forms that are longer than
necessary. -/
def leastSecond (first : Nat) : Nat :=
  if first = 0xe0 then 0xa0 else if first = 0xf0 then 0x90 else 0x80

/-- The greatest second byte behind a first byte. It excludes the surrogates and the code points
past the last one. -/
def greatestSecond (first : Nat) : Nat :=
  if first = 0xed then 0x9f else if first = 0xf4 then 0x8f else 0xbf

/-- The character that stands for bytes that are not well-formed. -/
def replacement : Char :=
  '\uFFFD'

/-- Reads `count` continuation bytes, the first of them between `low` and `high`, behind the bits
`bits`. The first byte that does not fit ends the character and is left alone. -/
def continued (count low high bits : Nat) (bytes : List UInt8) : Char × List UInt8 :=
  match count, bytes with
  | 0, rest => (Char.ofNat bits, rest)
  | _ + 1, [] => (replacement, [])
  | count + 1, b :: rest =>
    if low ≤ b.toNat ∧ b.toNat ≤ high then
      continued count 0x80 0xbf (bits * 64 + b.toNat % 64) rest
    else
      (replacement, b :: rest)

/-- The character at the front of the bytes `b :: rest`, and the bytes behind it. -/
def next (b : UInt8) (rest : List UInt8) : Char × List UInt8 :=
  match lead? b.toNat with
  | none => (replacement, rest)
  | some l => continued l.count (leastSecond b.toNat) (greatestSecond b.toNat) l.bits rest

theorem length_continued_le (count low high bits : Nat) (bytes : List UInt8) :
    (continued count low high bits bytes).2.length ≤ bytes.length := by
  fun_induction continued count low high bits bytes with
  | case1 => exact Nat.le_refl _
  | case2 => exact Nat.le_refl _
  | case3 _ _ _ _ _ _ _ ih => exact Nat.le_succ_of_le ih
  | case4 => exact Nat.le_refl _

theorem length_next_le (b : UInt8) (rest : List UInt8) : (next b rest).2.length ≤ rest.length := by
  rw [next]
  split
  · exact Nat.le_refl _
  · exact length_continued_le ..

/-- The characters of some bytes. -/
def decode (bytes : List UInt8) : List Char :=
  match bytes with
  | [] => []
  | b :: rest =>
    match _read : next b rest with
    | (c, behind) => c :: decode behind
termination_by bytes.length
decreasing_by
  have := length_next_le b rest
  rw [_read] at this
  exact Nat.lt_succ_of_le this

@[simp] theorem decode_nil : decode [] = [] := by
  rw [decode]

theorem decode_cons (b : UInt8) (rest : List UInt8) :
    decode (b :: rest) = (next b rest).1 :: decode (next b rest).2 := by
  rw [decode]

/-! ### Well-formed characters -/

theorem continued_succ {count low high bits : Nat} {b : UInt8} {rest : List UInt8}
    (h : low ≤ b.toNat ∧ b.toNat ≤ high) : continued (count + 1) low high bits (b :: rest) =
      continued count 0x80 0xbf (bits * 64 + b.toNat % 64) rest := by
  rw [continued, if_pos h]

theorem leastSecond_le {first second : Nat} (h : 0x80 ≤ second) (h₃ : first = 0xe0 → 0xa0 ≤ second)
    (h₄ : first = 0xf0 → 0x90 ≤ second) : leastSecond first ≤ second := by
  unfold leastSecond
  split
  · exact h₃ ‹_›
  · split
    · exact h₄ ‹_›
    · exact h

theorem le_greatestSecond {first second : Nat} (h : second ≤ 0xbf)
    (h₃ : first = 0xed → second ≤ 0x9f) (h₄ : first = 0xf4 → second ≤ 0x8f) :
    second ≤ greatestSecond first := by
  unfold greatestSecond
  split
  · exact h₃ ‹_›
  · split
    · exact h₄ ‹_›
    · exact h

/-- A well-formed character is read as it was written, and nothing behind it is touched. -/
theorem next_encode (c : Char) (rest : List UInt8) :
    ∃ b tail, String.utf8EncodeChar c ++ rest = b :: tail ∧ next b tail = (c, rest) := by
  have hc : c.val.toNat < 0xd800 ∨ 0xdfff < c.val.toNat ∧ c.val.toNat < 0x110000 := c.valid
  have hof : Char.ofNat c.val.toNat = c := Char.ofNat_toNat c
  generalize hv : c.val.toNat = v at hc hof
  unfold String.utf8EncodeChar
  simp only [hv]
  split
  next h₁ =>
    refine ⟨UInt8.ofNat v, rest, rfl, ?_⟩
    simp only [next, lead?, UInt8.toNat_ofNat']
    rw [if_pos (by omega)]
    simp only [continued]
    rw [Nat.mod_eq_of_lt (by omega), hof]
  next h₁ =>
  split
  next h₂ =>
    refine ⟨_, UInt8.ofNat (v % 64 + 128) :: rest, rfl, ?_⟩
    simp only [next, lead?, UInt8.toNat_ofNat']
    rw [if_neg (by omega), if_neg (by omega), if_pos (by omega)]
    simp only
    rw [continued_succ ⟨leastSecond_le (by simp; omega) (by omega) (by omega),
      le_greatestSecond (by simp; omega) (by omega) (by omega)⟩]
    simp only [continued, UInt8.toNat_ofNat']
    rw [← hof]
    congr 2
    omega
  next h₂ =>
  split
  next h₃ =>
    refine ⟨_, UInt8.ofNat (v / 64 % 64 + 128) :: UInt8.ofNat (v % 64 + 128) :: rest, rfl, ?_⟩
    simp only [next, lead?, UInt8.toNat_ofNat']
    rw [if_neg (by omega), if_neg (by omega), if_neg (by omega), if_pos (by omega)]
    simp only
    rw [continued_succ ⟨leastSecond_le (by simp; omega) (by simp; omega) (by omega),
      le_greatestSecond (by simp; omega) (by simp; omega) (by omega)⟩,
      continued_succ (by simp; omega)]
    simp only [continued, UInt8.toNat_ofNat']
    rw [← hof]
    congr 2
    omega
  next h₃ =>
    refine ⟨_, UInt8.ofNat (v / 4096 % 64 + 128) :: UInt8.ofNat (v / 64 % 64 + 128) ::
      UInt8.ofNat (v % 64 + 128) :: rest, rfl, ?_⟩
    simp only [next, lead?, UInt8.toNat_ofNat']
    rw [if_neg (by omega), if_neg (by omega), if_neg (by omega), if_neg (by omega),
      if_pos (by omega)]
    simp only
    rw [continued_succ ⟨leastSecond_le (by simp; omega) (by omega) (by simp; omega),
      le_greatestSecond (by simp; omega) (by omega) (by simp; omega)⟩,
      continued_succ (by simp; omega), continued_succ (by simp; omega)]
    simp only [continued, UInt8.toNat_ofNat']
    rw [← hof]
    congr 2
    omega

/-- Reading a well-formed character in front of some bytes gives that character in front of what
the bytes give. -/
theorem decode_encodeChar_append (c : Char) (rest : List UInt8) :
    decode (String.utf8EncodeChar c ++ rest) = c :: decode rest := by
  obtain ⟨b, tail, h, hn⟩ := next_encode c rest
  rw [h, decode_cons, hn]

/-- Reading a text in UTF-8 gives the text. -/
theorem decode_encode (text : List Char) : decode (text.flatMap String.utf8EncodeChar) = text := by
  induction text with
  | nil => exact decode_nil
  | cons c text ih => rw [List.flatMap_cons, decode_encodeChar_append, ih]

end PhraseTape.Utf8
