import Mathlib.Data.List.Basic
import SqlText.Text.Basic

/-!
# The bytes of a text

A text in UTF-8 is a list of bytes, and an offset into it counts them. Offsets between two
characters cut the text; the others lie inside a character and cut nothing.

A character below 128 takes one byte, its own code. Any other character takes several, and all of
them are 128 or more. So whoever looks for marks of one byte may look at bytes and need not know
where characters start: no byte of another character is taken for a mark.

## Main statements

* `byte_eq_mark_iff`: a byte of a character is a mark only if the character is.
* `fromByte?_eq_some_iff`: which offsets cut a text, and where.
* `exists_split_of_lt`: every offset inside a text is a byte of one of its characters.
-/

namespace SqlText

namespace Text

/-! ## Bytes of a text -/

/-- The bytes of a text in UTF-8. -/
def bytes (t : Text) : List UInt8 := t.flatMap String.utf8EncodeChar

theorem bytes_append (s t : Text) : bytes (s ++ t) = bytes s ++ bytes t := List.flatMap_append

@[simp] theorem length_bytes (t : Text) : (bytes t).length = byteSize t := by
  induction t with
  | nil => rfl
  | cons c t ih =>
    rw [bytes, List.flatMap_cons, List.length_append, String.length_utf8EncodeChar, byteSize_cons,
      ← ih]
    rfl

theorem utf8Size_of_lt {c : Char} (h : c.toNat < 128) : c.utf8Size = 1 := by
  rw [Char.utf8Size_eq_one_iff, UInt32.le_iff_toNat_le]
  exact Nat.le_of_lt_succ h

/-- A mark of one byte moves the end of a text on by one. -/
theorem byteSize_concat (t : Text) {mark : Char} (h : mark.toNat < 128) :
    byteSize (t ++ [mark]) = byteSize t + 1 := by
  rw [byteSize_append, byteSize_cons, byteSize_nil, utf8Size_of_lt h]

/-- A character of one byte is its own byte. -/
theorem toNat_toUInt8 {c : Char} (h : c.toNat < 128) : c.toUInt8.toNat = c.toNat := by
  change c.val.toUInt8.toNat = c.val.toNat
  rw [UInt32.toNat_toUInt8]
  exact Nat.mod_eq_of_lt (Nat.lt_trans h (by decide))

/-- A character of several bytes has none that is a character of one byte. -/
theorem le_of_mem_utf8EncodeChar {c : Char} (h : 128 ≤ c.toNat) {b : UInt8}
    (hb : b ∈ String.utf8EncodeChar c) : 128 ≤ b.toNat := by
  have hc : ¬c.val.toNat ≤ 0x7f := Nat.not_le.2 h
  simp only [String.utf8EncodeChar, if_neg hc] at hb
  split at hb
  · simp only [List.mem_cons, List.not_mem_nil, or_false] at hb
    rcases hb with rfl | rfl <;> rw [UInt8.toNat_ofNat'] <;> omega
  · split at hb
    · simp only [List.mem_cons, List.not_mem_nil, or_false] at hb
      rcases hb with rfl | rfl | rfl <;> rw [UInt8.toNat_ofNat'] <;> omega
    · simp only [List.mem_cons, List.not_mem_nil, or_false] at hb
      rcases hb with rfl | rfl | rfl | rfl <;> rw [UInt8.toNat_ofNat'] <;> omega

/-- **A byte of a character is a mark only if the character is**, for marks of one byte. -/
theorem byte_eq_mark_iff {c mark : Char} (hmark : mark.toNat < 128) {b : UInt8}
    (hb : b ∈ String.utf8EncodeChar c) : b = mark.toUInt8 ↔ c = mark := by
  rw [← UInt8.toNat_inj, toNat_toUInt8 hmark, ← Char.toNat_inj]
  by_cases hc : c.toNat < 128
  · rw [String.utf8EncodeChar_eq_singleton (utf8Size_of_lt hc), List.mem_singleton] at hb
    rw [hb]
    exact iff_of_eq (congrArg (· = mark.toNat) (toNat_toUInt8 hc))
  · have := le_of_mem_utf8EncodeChar (Nat.not_lt.1 hc) hb
    omega

/-- The bytes of a character stand behind those of the characters before it. -/
theorem exists_byte {t before rest : Text} {c : Char} (ht : t = before ++ c :: rest) {k : Nat}
    (hk : k < c.utf8Size) :
    ∃ b ∈ String.utf8EncodeChar c, (bytes t)[byteSize before + k]? = some b := by
  have hk' : k < (String.utf8EncodeChar c).length := by rwa [String.length_utf8EncodeChar]
  refine ⟨_, List.getElem_mem hk', ?_⟩
  rw [ht, bytes_append, List.getElem?_append_right (by rw [length_bytes]; omega), length_bytes,
    Nat.add_sub_cancel_left, bytes, List.flatMap_cons, List.getElem?_append_left hk',
    List.getElem?_eq_getElem hk']

/-- A mark of one byte is found at its offset. -/
theorem getElem?_bytes_of_mark {t before rest : Text} {mark : Char} (hmark : mark.toNat < 128)
    (ht : t = before ++ mark :: rest) : (bytes t)[byteSize before]? = some mark.toUInt8 := by
  obtain ⟨b, hmem, hb⟩ := exists_byte ht (k := 0) (Char.utf8Size_pos mark)
  rw [← (byte_eq_mark_iff hmark hmem).2 rfl]
  exact hb

theorem head?_bytes_iff {t : Text} {mark : Char} (hmark : mark.toNat < 128) :
    (bytes t).head? = some mark.toUInt8 ↔ t.head? = some mark := by
  cases t with
  | nil => simp [bytes]
  | cons c t =>
    obtain ⟨b, bs, hbytes⟩ := List.exists_cons_of_ne_nil (String.utf8EncodeChar_ne_nil (c := c))
    have hb := byte_eq_mark_iff (c := c) hmark (hbytes ▸ List.mem_cons_self)
    simp [bytes, hbytes, hb]

theorem getLast?_bytes_iff {t : Text} {mark : Char} (hmark : mark.toNat < 128) :
    (bytes t).getLast? = some mark.toUInt8 ↔ t.getLast? = some mark := by
  rcases List.eq_nil_or_concat' t with rfl | ⟨u, c, rfl⟩
  · simp [bytes]
  · obtain ⟨bs, b, hbytes⟩ :=
      (List.eq_nil_or_concat' _).resolve_left (String.utf8EncodeChar_ne_nil (c := c))
    have hb := byte_eq_mark_iff (c := c) hmark (b := b) (by rw [hbytes]; simp)
    rw [bytes_append, bytes, bytes, List.flatMap_singleton, hbytes, ← List.append_assoc,
      List.getLast?_concat, List.getLast?_concat, Option.some.injEq, Option.some.injEq, hb]

/-! ## Offsets between characters -/

/-- Whether a byte offset lies between two characters of a text, or at one of its ends. -/
def IsCharBoundary (t : Text) (n : Nat) : Prop := ∃ s r, t = s ++ r ∧ byteSize s = n

/-- **An offset cuts a text where the characters before it take as many bytes.** -/
theorem fromByte?_eq_some_iff {t r : Text} {n : Nat} :
    fromByte? t n = some r ↔ ∃ s, t = s ++ r ∧ byteSize s = n := by
  constructor
  · intro h
    fun_induction fromByte? t n with
    | case1 t => exact ⟨[], by simpa using h, rfl⟩
    | case2 => cases h
    | case3 c t n hc ih =>
      obtain ⟨s, rfl, hs⟩ := ih h
      exact ⟨c :: s, rfl, by rw [byteSize_cons]; omega⟩
    | case4 => cases h
  · rintro ⟨s, rfl, rfl⟩
    exact fromByte?_append s r

theorem isCharBoundary_iff {t : Text} {n : Nat} :
    IsCharBoundary t n ↔ ∃ r, fromByte? t n = some r := by
  simp only [fromByte?_eq_some_iff]
  exact exists_comm

/-- An offset that cuts nothing lies between no two characters. -/
theorem fromByte?_eq_none_iff {t : Text} {n : Nat} :
    fromByte? t n = none ↔ ¬IsCharBoundary t n := by
  rw [isCharBoundary_iff, ← Option.isSome_iff_exists, Option.not_isSome_iff_eq_none]

theorem IsCharBoundary.le {t : Text} {n : Nat} (h : IsCharBoundary t n) : n ≤ byteSize t := by
  obtain ⟨s, r, rfl, rfl⟩ := h
  rw [byteSize_append]
  omega

/-- **Every offset inside a text is a byte of one of its characters.** -/
theorem exists_split_of_lt {t : Text} {n : Nat} (h : n < byteSize t) :
    ∃ s c r k, t = s ++ c :: r ∧ n = byteSize s + k ∧ k < c.utf8Size := by
  induction t generalizing n with
  | nil => cases h
  | cons c t ih =>
    rw [byteSize_cons] at h
    by_cases hc : n < c.utf8Size
    · exact ⟨[], c, t, n, rfl, by simp, hc⟩
    · obtain ⟨s, d, r, k, rfl, hk, hlt⟩ := ih (n := n - c.utf8Size) (by omega)
      exact ⟨c :: s, d, r, k, rfl, by rw [byteSize_cons]; omega, hlt⟩

end Text

end SqlText
