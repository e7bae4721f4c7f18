import SqlText.Literal.Escape

/-!
# Decoding what was written with escapes

Each format writes a text character by character and leaves the decoding to the general rules of
escapes, which know many more escapes than any one format writes. It is enough to look at single
characters: where decoding takes the spelling of one back, whatever stands behind it, it takes back
a whole text.

The condition on what stands behind is what keeps spellings apart. An octal escape of one digit does
not meet it, since it would go on with a digit of the next character.

## Main statements

* `decode_single`, `decode_plain`, `decode_escape`, `decode_pair`: what one spelling is decoded to.
* `decode_flatMap_map`, `decode_flatMap`: items in a row, and the characters of a text, are decoded
  if each of them is.
* `unescape_flatMap`: the same without a backslash left over.
-/

namespace SqlText

namespace Escape

theorem decode_nil (doubled : Bool) : decode doubled [] = ⟨[], false⟩ := by
  rw [decode]

/-- A character that opens no escape and no pair stands for itself. -/
theorem decode_single (doubled : Bool) {c : Char} (hb : c ≠ '\\') {t : Text}
    (hq : doubled = true → c = '\'' → t.head? ≠ some '\'') :
    decode doubled (c :: t) = (decode doubled t).push c := by
  have hpair : ¬(doubled && c == '\'' && t.head? == some '\'') = true := by
    simp only [Bool.and_eq_true, beq_iff_eq]
    rintro ⟨⟨hdoubled, hc⟩, hhead⟩
    exact hq hdoubled hc hhead
  rw [decode.eq_def]
  simp only [if_neg hb, if_neg hpair]

/-- So does one that could not open them, whatever follows. -/
theorem decode_plain (doubled : Bool) {c : Char} (hb : c ≠ '\\')
    (hq : doubled = true → c ≠ '\'') (t : Text) :
    decode doubled (c :: t) = (decode doubled t).push c :=
  decode_single doubled hb fun hdoubled hc => absurd hc (hq hdoubled)

/-- A backslash with a character behind it that is no octal digit stands for what this one means. -/
theorem decode_escape (doubled : Bool) {e : Char} (he : octalDigit? e = none) (t : Text) :
    decode doubled ('\\' :: e :: t) = (decode doubled t).push (meaning e) := by
  rw [decode.eq_def]
  simp only [if_true, he]

/-- A pair of quotes stands for one. -/
theorem decode_pair (t : Text) :
    decode true ('\'' :: '\'' :: t) = (decode true t).push '\'' := by
  rw [decode.eq_def]
  simp

/-- **Items are decoded if each of them is**, by itself whatever follows. -/
theorem decode_flatMap_map {α : Type} {write : α → Text} {value : α → Char} {xs : List α}
    {doubled : Bool}
    (h : ∀ x ∈ xs, ∀ u, decode doubled (write x ++ u) = (decode doubled u).push (value x)) :
    decode doubled (xs.flatMap write) = ⟨xs.map value, false⟩ := by
  induction xs with
  | nil => exact decode_nil doubled
  | cons x xs ih =>
    have hrest := ih fun y hy => h y (List.mem_cons_of_mem _ hy)
    rw [List.flatMap_cons, h x List.mem_cons_self, hrest]
    rfl

section

variable {write : Char → Text} {t : Text}

/-- So a text is decoded if its characters are. -/
theorem decode_flatMap {doubled : Bool}
    (h : ∀ c ∈ t, ∀ u, decode doubled (write c ++ u) = (decode doubled u).push c) :
    decode doubled (t.flatMap write) = ⟨t, false⟩ := by
  have hread : decode doubled (t.flatMap write) = ⟨t.map id, false⟩ := decode_flatMap_map h
  rwa [List.map_id] at hread

theorem unescape_flatMap
    (h : ∀ c ∈ t, ∀ u, decode false (write c ++ u) = (decode false u).push c) :
    unescape (t.flatMap write) = t := by
  rw [unescape, decode_flatMap h]
  rfl

/-- A text without a backslash stays. -/
theorem unescape_of_not_mem (h : '\\' ∉ t) : unescape t = t := by
  have hread : unescape (t.flatMap fun c => [c]) = t :=
    unescape_flatMap fun c hc u => decode_plain false (fun he => h (he ▸ hc)) nofun u
  rwa [List.flatMap_singleton'] at hread

end

end Escape

end SqlText
