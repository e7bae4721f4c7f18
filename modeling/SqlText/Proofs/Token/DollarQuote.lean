import SqlText.Proofs.Text.Occurrence
import SqlText.Proofs.Token.OneLiteral

/-!
# Where a dollar quote closes

The rules of tokens close a dollar quote at the first tag behind the opening one. The reader of
literals asks less: it compares the two ends of the text. So it reads every text that is one dollar
quote, and also texts in which the tag stands earlier, such as two dollar quotes in a row; there it
takes the tags in between for a part of the value.

## Main statements

* `Literal.unquote_dollar_cases`: the reader asks for the tag at both ends, and for nothing else.
* `isOneToken_dollarString_iff`: the rules ask that the tag stands nowhere before the end.
* `dollar_quote_ends`: so the reader takes more texts, exactly those with a tag in between.
-/

namespace SqlText

open Text Rule

/-- The tag stands at both ends of a text, and apart, if the rest behind the first ends in it. -/
theorem ends_in_tag_iff {tag rest : Text} :
    2 * tag.length ≤ (tag ++ rest).length ∧ tag.isSuffixOf (tag ++ rest) = true ↔
      ∃ inner, rest = inner ++ tag := by
  rw [List.isSuffixOf_iff_suffix, List.length_append]
  constructor
  · rintro ⟨hle, hsuffix⟩
    obtain ⟨inner, hinner⟩ :=
      List.suffix_of_suffix_length_le hsuffix (List.suffix_append tag rest) (by omega)
    exact ⟨inner, hinner.symm⟩
  · rintro ⟨inner, rfl⟩
    refine ⟨?_, (List.suffix_append inner tag).trans (List.suffix_append tag _)⟩
    rw [List.length_append]
    omega

section

variable {tag rest : Text} (h : dollarTag (tag ++ rest) = some tag.length)

include h

theorem tag_ne_nil : tag ≠ [] := List.length_pos_iff.1 (dollarTag_bounds h).1

theorem exists_cons_dollar : ∃ s, tag ++ rest = '$' :: s := by
  cases hs : tag ++ rest with
  | nil =>
    rw [hs] at h
    cases h
  | cons c s =>
    rw [hs] at h
    obtain ⟨rfl, -⟩ := dollarTag_eq_some_iff.1 h
    exact ⟨s, rfl⟩

/-! ## The reader of literals -/

/--
**A text that opens a dollar quote is read if it ends in the same tag**, as what stands between the
two; otherwise it is refused. What stands between them does not matter.
-/
theorem Literal.unquote_dollar_cases (standardQuoting : Bool) :
    (∃ inner, rest = inner ++ tag ∧
      unquote standardQuoting (tag ++ rest) = .ok (some inner)) ∨
    ((¬∃ inner, rest = inner ++ tag) ∧
      unquote standardQuoting (tag ++ rest)
        = .error (.malformedLiteral (tag ++ rest) .unclosedTag)) := by
  by_cases hends : ∃ inner, rest = inner ++ tag
  · obtain ⟨inner, rfl⟩ := hends
    rw [← List.append_assoc] at h ⊢
    exact Or.inl ⟨inner, rfl, unquote_between_tags standardQuoting h⟩
  · refine Or.inr ⟨hends, ?_⟩
    have hrefused : unquoteDollar (tag ++ rest)
        = .error (.malformedLiteral (tag ++ rest) .unclosedTag) := by
      rw [unquoteDollar, h]
      simp only [List.take_left]
      rw [if_neg fun hboth => hends (ends_in_tag_iff.1 hboth)]
    obtain ⟨s, hs⟩ := exists_cons_dollar h
    rw [hs] at hrefused ⊢
    rw [unquote, hrefused]
    rfl

/-! ## The rules of tokens -/

/-- Where a dollar quote stands, no string and no name does. -/
theorem scan?_of_dollarQuoted {d : Dialect} {n : Nat}
    (hquoted : dollarQuoted (tag ++ rest) = some n) :
    scan? d (tag ++ rest) = some (.dollarString, n) := by
  obtain ⟨s, hs⟩ := exists_cons_dollar h
  rw [hs] at hquoted ⊢
  have hstring : Rule.string d.standardQuoting ('$' :: s) = none :=
    string_eq_none (by decide) fun he => absurd he (by decide)
  have hname : identifier d.fullyQualified ('$' :: s) = none := by
    rw [identifier, Option.map_eq_none_iff, name, if_neg (by decide)]
    exact quoted_eq_none (t := '$' :: s) (by simp)
  simp [scan?, rules, tagged, hstring, hname, hquoted]

/-- **A text is one dollar quote if its tag stands at the end and nowhere before.** -/
theorem isOneToken_dollarString_iff {d : Dialect} :
    IsOneToken d .dollarString (tag ++ rest) ↔
      ∃ inner, rest = inner ++ tag ∧ ¬tag <:+: inner ++ tag.dropLast := by
  have hfound : ∀ n, dollarQuoted (tag ++ rest) = some n ↔
      ∃ k, indexOf? tag rest = some k ∧ tag.length + k + tag.length = n := by
    intro n
    rw [dollarQuoted, h, Option.bind_some, List.take_left, List.drop_left, Option.map_eq_some_iff]
  rw [isOneToken_iff]
  constructor
  · intro hscan
    obtain ⟨k, hindex, hlength⟩ := (hfound _).1 (dollarQuoted_of_scan? hscan)
    obtain ⟨inner, behind, rfl, rfl, hfirst⟩ := (indexOf?_eq_some_iff (tag_ne_nil h)).1 hindex
    simp only [List.length_append] at hlength
    obtain rfl : behind = [] := List.length_eq_zero_iff.1 (by omega)
    exact ⟨inner, List.append_nil _, hfirst⟩
  · rintro ⟨inner, rfl, hfirst⟩
    have hindex : indexOf? tag (inner ++ tag) = some inner.length :=
      (indexOf?_eq_some_iff (tag_ne_nil h)).2
        ⟨inner, [], (List.append_nil _).symm, rfl, hfirst⟩
    refine scan?_of_dollarQuoted h ((hfound _).2 ⟨inner.length, hindex, ?_⟩)
    simp only [List.length_append]
    omega

end

/--
**The reader takes a text that opens a dollar quote by its two ends.** It reads the text if and only
if the text ends in the tag that opens it, as what stands between the two tags, and refuses every
other. A text is one token if moreover the tag stands nowhere before its end. So one token is always
read, and the texts that are read without being one token are those with a tag in between.
-/
theorem dollar_quote_ends (d : Dialect) (tag rest : Text)
    (h : dollarTag (tag ++ rest) = some tag.length) (standardQuoting : Bool) :
    (∀ inner, Literal.unquote standardQuoting (tag ++ rest) = .ok (some inner) ↔
      rest = inner ++ tag) ∧
    ((¬∃ inner, rest = inner ++ tag) → Literal.unquote standardQuoting (tag ++ rest)
      = .error (.malformedLiteral (tag ++ rest) .unclosedTag)) ∧
    (IsOneToken d .dollarString (tag ++ rest) ↔
      ∃ inner, rest = inner ++ tag ∧ ¬tag <:+: inner ++ tag.dropLast) ∧
    ((∃ v, Literal.unquote standardQuoting (tag ++ rest) = .ok v) ∧
        ¬IsOneToken d .dollarString (tag ++ rest) ↔
      ∃ inner, rest = inner ++ tag ∧ tag <:+: inner ++ tag.dropLast) := by
  have htoken := isOneToken_dollarString_iff (d := d) h
  rcases Literal.unquote_dollar_cases h standardQuoting with ⟨inner, rfl, hread⟩ | ⟨hends, hread⟩
  · -- what stands before the last tag is determined
    have hinner : ∀ other, inner ++ tag = other ++ tag ↔ inner = other := fun other =>
      List.append_left_inj tag
    refine ⟨fun other => ?_, fun hends => absurd ⟨inner, rfl⟩ hends, htoken, ?_⟩
    · rw [hread, hinner, Except.ok.injEq, Option.some.injEq]
    · rw [htoken, hread]
      simp only [hinner, exists_eq_left', not_not]
      exact ⟨fun hboth => hboth.2, fun hearlier => ⟨⟨_, rfl⟩, hearlier⟩⟩
  · refine ⟨fun inner => ?_, fun _ => hread, htoken, ?_⟩
    · rw [hread]
      exact ⟨nofun, fun hinner => absurd ⟨inner, hinner⟩ hends⟩
    · rw [hread]
      refine ⟨fun hboth => ?_, fun ⟨inner, hinner, _⟩ => absurd ⟨inner, hinner⟩ hends⟩
      obtain ⟨v, hv⟩ := hboth.1
      cases hv

/-- Another tag and a part of the same one stand between the tags, and once the last one differs. -/
theorem dollar_quote_ends_tagged :
    let tag := "$a$".toList
    let rest := "$$é$a $a$".toList
    dollarTag (tag ++ rest) = some tag.length ∧
    (∀ standardQuoting,
      Literal.unquote standardQuoting (tag ++ rest) = .ok (some "$$é$a ".toList)) ∧
    IsOneToken .legacy .dollarString (tag ++ rest) ∧
    dollarTag (tag ++ "x$b$".toList) = some tag.length ∧
    ∀ standardQuoting, Literal.unquote standardQuoting (tag ++ "x$b$".toList)
      = .error (.malformedLiteral (tag ++ "x$b$".toList) .unclosedTag) := by
  intro tag rest
  have htag : dollarTag (tag ++ rest) = some tag.length := by decide
  have hother : dollarTag (tag ++ "x$b$".toList) = some tag.length := by decide
  have hopen : ¬∃ inner, "x$b$".toList = inner ++ tag := by
    rintro ⟨inner, hinner⟩
    have hsuffix : tag <:+ "x$b$".toList := ⟨inner, hinner.symm⟩
    exact absurd hsuffix (by decide)
  refine ⟨htag, fun standardQuoting => ?_, ?_, hother, fun standardQuoting => ?_⟩
  · exact ((dollar_quote_ends .legacy tag rest htag standardQuoting).1 _).2 (by decide)
  · exact (dollar_quote_ends .legacy tag rest htag false).2.2.1.2
      ⟨"$$é$a ".toList, by decide, by decide⟩
  · exact (dollar_quote_ends .legacy tag _ hother standardQuoting).2.1 hopen

/--
A text with a tag in between is read, although it is no token by any dialect: the first tag behind
the opening one does not end it.
-/
theorem dollar_quote_passes_inner_tag :
    let text := "$$a$$b$$".toList
    dollarTag text = some 2 ∧
    (∀ standardQuoting, Literal.unquote standardQuoting text = .ok (some "a$$b".toList)) ∧
    ∀ d, ¬IsOneToken d .dollarString text := by
  intro text
  refine ⟨by decide, fun standardQuoting => by cases standardQuoting <;> rfl, fun d hone => ?_⟩
  rw [isOneToken_iff] at hone
  obtain ⟨standardQuoting, fullyQualified⟩ := d
  cases standardQuoting <;> cases fullyQualified <;> exact absurd hone (by decide +kernel)

end SqlText
