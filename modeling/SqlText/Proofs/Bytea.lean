import SqlText.Bytea
import SqlText.Proofs.CopyLine
import SqlText.Proofs.Spelling

/-!
# Bytes read back

A byte is written as a character, as two backslashes or as an octal escape. Removing the escapes
gives one character for each byte, with the byte as its code. Nothing runs together: an octal escape
always has its three digits, so a digit that stands for itself behind it is never taken for a
fourth, and backslashes come in pairs or before such digits.

The text is then written as a literal or as a field of a COPY line, which doubles its backslashes
once more. Each of these formats reads back by itself, so bytes are read in two steps.

## Main statements

* `Bytea.quoteByte_cases`: the three ways of writing a byte.
* `Bytea.decode_quoteByte`: each is decoded by itself, whatever follows.
* `Bytea.unescape_quote`: so bytes read back as characters with their codes.
* `bytes_read_back`: also through a literal and a COPY field, and what is written is printable.
-/

namespace SqlText

open Literal

namespace Bytea

/-! ## One byte -/

theorem toNat_ofUInt8 (b : UInt8) : (Char.ofUInt8 b).toNat = b.toNat := rfl

/-- The octal digits of a byte, the highest first. -/
def digits (b : UInt8) : List (Fin 8) :=
  [Fin.ofNat 8 (b.toNat / 64), Fin.ofNat 8 (b.toNat / 8), Fin.ofNat 8 b.toNat]

theorem octal_eq (b : UInt8) : octal b = (digits b).map Spelling.digitChar := by
  have hdigit : ∀ d : Fin 8, Spelling.digitChar d = Nat.digitChar d.val := by decide
  have hhigh : b.toNat / 64 % 8 = b.toNat / 64 := by
    have := b.toNat_lt
    omega
  simp only [octal, digits, List.map_cons, List.map_nil, hdigit, Fin.val_ofNat, hhigh]

/-- The digits of a byte make up its number. -/
theorem ofDigits_digits (b : UInt8) :
    Nat.ofDigits 8 ((digits b).map Fin.val).reverse = b.toNat := by
  have := b.toNat_lt
  simp only [digits, List.map_cons, List.map_nil, Fin.val_ofNat, List.reverse_cons,
    List.reverse_nil, List.nil_append, List.cons_append, Nat.ofDigits_cons, Nat.ofDigits_nil]
  omega

/-- **A byte is written as two backslashes, as its character or as an octal escape.** -/
theorem quoteByte_cases (b : UInt8) :
    (quoteByte b = ['\\', '\\'] ∧ Char.ofUInt8 b = '\\') ∨
    (quoteByte b = [Char.ofUInt8 b] ∧ Char.ofUInt8 b ≠ '\\' ∧ 0x20 ≤ b.toNat ∧ b.toNat < 0x7F) ∨
    quoteByte b = '\\' :: (digits b).map Spelling.digitChar := by
  unfold quoteByte
  split
  · next hb =>
    subst hb
    exact Or.inl ⟨rfl, rfl⟩
  · next hb =>
    split
    · next hprintable =>
      have hchar : Char.ofNat b.toNat = Char.ofUInt8 b := by
        rw [← toNat_ofUInt8, Char.ofNat_toNat]
      refine Or.inr (Or.inl ⟨by rw [hchar], fun hc => hb ?_, hprintable⟩)
      exact UInt8.toNat_inj.1 (congrArg Char.toNat hc)
    · exact Or.inr (Or.inr (by rw [octal_eq]))

/-- **A written byte is decoded by itself**, whatever follows. -/
theorem decode_quoteByte (b : UInt8) (t : Text) :
    Escape.decode false (quoteByte b ++ t) = (Escape.decode false t).push (Char.ofUInt8 b) := by
  rcases quoteByte_cases b with ⟨hpair, hb⟩ | ⟨hself, hb, -⟩ | hoctal
  · rw [hpair, hb]
    exact Escape.decode_escape false rfl t
  · rw [hself]
    exact Escape.decode_plain false hb nofun t
  · -- three digits are all that an escape takes, so a digit behind them does not matter
    have hthree : 1 ≤ (digits b).length ∧ (digits b).length ≤ 3 := by simp [digits]
    have hclosed : (digits b).length < 3 → ∀ c ∈ t.head?, c ∉ octalDigits := fun hlt =>
      absurd hlt (Nat.lt_irrefl 3)
    rw [hoctal, Spelling.decode_octal false hthree hclosed, ofDigits_digits, ← toNat_ofUInt8,
      Char.ofNat_toNat]

/-- What a byte is written with is printable. -/
theorem printable_of_mem_quoteByte {b : UInt8} {c : Char} (h : c ∈ quoteByte b) :
    0x20 ≤ c.toNat ∧ c.toNat ≤ 0x7E := by
  rcases quoteByte_cases b with ⟨hpair, -⟩ | ⟨hself, -, hrange⟩ | hoctal
  · rw [hpair, List.mem_cons, List.mem_singleton, or_self] at h
    subst h
    decide
  · rw [hself, List.mem_singleton] at h
    rw [h, toNat_ofUInt8]
    omega
  · have hdigit : ∀ d : Fin 8,
        0x20 ≤ (Spelling.digitChar d).toNat ∧ (Spelling.digitChar d).toNat ≤ 0x7E := by decide
    rw [hoctal] at h
    rcases List.mem_cons.1 h with rfl | h
    · decide
    · obtain ⟨d, -, rfl⟩ := List.mem_map.1 h
      exact hdigit d

/-! ## Bytes in a row -/

/-- **Bytes read back as the characters with their codes.** -/
theorem unescape_quote (bytes : List UInt8) :
    Escape.unescape (quote bytes) = bytes.map Char.ofUInt8 := by
  rw [Escape.unescape, quote, Escape.decode_flatMap_map fun b _ => decode_quoteByte b]
  rfl

theorem printable_of_mem_quote {bytes : List UInt8} {c : Char} (h : c ∈ quote bytes) :
    0x20 ≤ c.toNat ∧ c.toNat ≤ 0x7E := by
  obtain ⟨b, -, hc⟩ := List.mem_flatMap.1 h
  exact printable_of_mem_quoteByte hc

end Bytea

/--
**Bytes read back, through every layer.** There is a text with one character for each byte, whose
codes are the bytes in order. Written bytes are decoded to it; written as a literal they are read as
a string that is decoded to it, by either rule of quoting, and written as a COPY field likewise.
Written bytes are printable characters of ASCII. Missing bytes read back as the missing value.
-/
theorem bytes_read_back (bytes : List UInt8) :
    (∃ t : Text, t.map Char.toNat = bytes.map UInt8.toNat ∧
      Escape.unescape (Bytea.quote bytes) = t ∧
      (∀ standardQuoting, ∃ inner,
        Literal.unquote standardQuoting (Bytea.quoteLiteral (some bytes)) = .ok (some inner) ∧
        Escape.unescape inner = t) ∧
      ∃ inner, CopyField.unquote (Bytea.quoteCopy (some bytes)) = some inner ∧
        Escape.unescape inner = t) ∧
    (∀ c ∈ Bytea.quote bytes, 0x20 ≤ c.toNat ∧ c.toNat ≤ 0x7E) ∧
    (∀ standardQuoting,
      Literal.unquote standardQuoting (Bytea.quoteLiteral none) = .ok none) ∧
    CopyField.unquote (Bytea.quoteCopy none) = none := by
  have hread := Bytea.unescape_quote bytes
  refine ⟨⟨bytes.map Char.ofUInt8, ?_, hread, fun standardQuoting => ?_, ?_⟩, ?_, ?_, ?_⟩
  · rw [List.map_map]
    exact List.map_congr_left fun b _ => Bytea.toNat_ofUInt8 b
  · exact ⟨Bytea.quote bytes, Literal.unquote_quote standardQuoting _, hread⟩
  · exact ⟨Bytea.quote bytes, CopyField.unquote_quote _, hread⟩
  · exact fun c hc => Bytea.printable_of_mem_quote hc
  · exact fun standardQuoting => Literal.unquote_quote standardQuoting none
  · exact CopyField.unquote_quote none

/--
A digit behind an octal escape, two backslashes in a row, the code behind the printable ones, the
highest one and a quote, as a literal.
-/
theorem bytes_read_back_adjacent :
    let bytes : List UInt8 := [0x00, 0x37, 0x5C, 0x5C, 0x7F, 0xFF, 0x27]
    Bytea.quoteLiteral (some bytes) = "E'\\\\0007\\\\\\\\\\\\\\\\\\\\177\\\\377'''".toList ∧
    (∀ standardQuoting, ∃ inner,
      Literal.unquote standardQuoting (Bytea.quoteLiteral (some bytes)) = .ok (some inner) ∧
      (Escape.unescape inner).map Char.toNat = [0x00, 0x37, 0x5C, 0x5C, 0x7F, 0xFF, 0x27]) ∧
    '\\' ∈ Bytea.quote bytes ∧ 0x20 ≤ '\\'.toNat ∧ '\\'.toNat ≤ 0x7E := by
  intro bytes
  obtain ⟨⟨t, hcodes, -, hliteral, -⟩, hprintable, -⟩ := bytes_read_back bytes
  have hmem : '\\' ∈ Bytea.quote bytes := by decide
  refine ⟨by decide, fun standardQuoting => ?_, hmem, hprintable _ hmem⟩
  obtain ⟨inner, hinner, ht⟩ := hliteral standardQuoting
  exact ⟨inner, hinner, by rw [ht, hcodes]; decide⟩

end SqlText
