import SqlText.Proofs.Result
import SqlText.Proofs.Token.Unquoting

/-!
# Texts that are one literal

A text is one literal if the rules of tokens find a single string in it, up to its last character.
The reader of literals judges by itself: it looks for the last quote, for a quote that stands alone
and for a backslash that escapes nothing. Both accept the same texts, since both accept whole units
between two quotes and nothing else. The step back of the rules to the last pair never reaches the
end of a text, so it never makes a literal that the reader would refuse.

A text between two equal dollar tags is read as it stands.

## Main statements

* `Rule.quoted_eq_length_iff`: a run in quotes fills a text if it is made of whole units.
* `Literal.exists_units_of_hasLoneQuote`: what has no lone quote is made of whole units, up to a
  backslash at the end.
* `Literal.exists_unquote_iff_string`: the reader and the rules accept the same strings.
* `unquote_ok_iff_one_token`: the same, on the tokens of a text.
-/

namespace SqlText

open Text Rule

/-- Whether a text is one token of the given kind, from its start to its end. -/
def IsOneToken (d : Dialect) (k : Kind) (text : Text) : Prop :=
  ∃ t, tokenAt d text 0 = .token t ∧ t.kind = k ∧ t.text = text

/-- A text is one token if the first lexeme fills it. -/
theorem isOneToken_iff {d : Dialect} {k : Kind} {text : Text} :
    IsOneToken d k text ↔ scan? d text = some (k, text.length) := by
  constructor
  · rintro ⟨t, htoken, hkind, htext⟩
    unfold tokenAt at htoken
    split at htoken
    · cases htoken
    · rw [fromByte?_zero] at htoken
      simp only [Cursor.advance?] at htoken
      cases hscan : scan? d text with
      | none =>
        rw [hscan] at htoken
        cases htoken
      | some r =>
        obtain ⟨k', n⟩ := r
        rw [hscan] at htoken
        cases htoken
        simp only at hkind htext
        have hlen : n = text.length := by
          have hle := (scan?_bounds hscan).2
          have := congrArg List.length htext
          rw [List.length_take] at this
          omega
        rw [hkind, hlen]
  · intro hscan
    have hwhole : scan? d (text ++ []) = some (k, text.length) := by rwa [List.append_nil]
    have htoken := tokenAt_append hwhole []
    rw [List.append_nil, List.nil_append] at htoken
    exact ⟨_, htoken, rfl, rfl⟩

/-! ## Which rule finds a literal -/

namespace Rule

/-- The rule of names finds names only. -/
theorem isIdentifier_of_identifier {fullyQualified : Bool} {t : Text} {k : Kind} {n : Nat}
    (h : identifier fullyQualified t = some (k, n)) : k.isIdentifier = true := by
  obtain ⟨m, -, he⟩ := Option.map_eq_some_iff.1 h
  obtain ⟨rfl, -⟩ := Prod.mk.inj he
  generalize (if fullyQualified then joined (t.drop m) else 0) = more
  split
  · rfl
  · split <;> rfl

end Rule

theorem scan?_eq_string_iff {d : Dialect} {t : Text} {n : Nat} :
    scan? d t = some (.string, n) ↔ Rule.string d.standardQuoting t = some n := by
  constructor
  · intro h
    rcases scan?_cases h with ⟨-, hstring⟩ | hname | ⟨hk, -⟩ | ⟨hk, -⟩ | ⟨-, hk⟩
    · exact hstring
    · cases isIdentifier_of_identifier hname
    · cases hk
    · cases hk
    · cases hk
  · exact scan?_of_string

theorem dollarQuoted_of_scan? {d : Dialect} {t : Text} {n : Nat}
    (h : scan? d t = some (.dollarString, n)) : dollarQuoted t = some n := by
  rcases scan?_cases h with ⟨hk, -⟩ | hname | ⟨-, hdollar⟩ | ⟨hk, -⟩ | ⟨-, hk⟩
  · cases hk
  · cases isIdentifier_of_identifier hname
  · exact hdollar
  · cases hk
  · cases hk

/-! ## Strings of whole units -/

namespace Rule

/-- **A run in quotes fills a text if the text is whole units and the closing quote.** -/
theorem quoted_eq_length_iff {q : Char} (hq : q ≠ '\\') {escapes : Bool} {s : Text} :
    quoted q escapes (q :: s) = some (s.length + 1) ↔
      ∃ us : List Text, (∀ u ∈ us, IsUnit q escapes u) ∧ s = us.flatten ++ [q] := by
  constructor
  · intro h
    obtain ⟨us, hus, ht⟩ := exists_units_of_quoted h
    rw [List.take_of_length_le (by simp), List.cons_append] at ht
    exact ⟨us, hus, (List.cons.inj ht).2⟩
  · rintro ⟨us, hus, rfl⟩
    have hend : ([] : Text).head? ≠ some q := by simp
    have hquoted := quoted_units hq hus hend
    rw [List.cons_append] at hquoted
    rw [hquoted, List.length_append, List.length_singleton]

end Rule

namespace Literal

/--
**A text without a lone quote is made of whole units**, but for a backslash at its end that escapes
nothing.
-/
theorem exists_units_of_hasLoneQuote {escapes : Bool} {t : Text}
    (h : hasLoneQuote escapes t = false) :
    ∃ us : List Text, (∀ u ∈ us, IsUnit '\'' escapes u) ∧
      (t = us.flatten ∨ escapes = true ∧ t = us.flatten ++ ['\\']) := by
  -- one unit goes before the others, and what follows them stays
  have hcons : ∀ {u s : Text}, IsUnit '\'' escapes u →
      (∃ us : List Text, (∀ v ∈ us, IsUnit '\'' escapes v) ∧
        (s = us.flatten ∨ escapes = true ∧ s = us.flatten ++ ['\\'])) →
      ∃ us : List Text, (∀ v ∈ us, IsUnit '\'' escapes v) ∧
        (u ++ s = us.flatten ∨ escapes = true ∧ u ++ s = us.flatten ++ ['\\']) := by
    rintro u s hu ⟨us, hus, hs⟩
    refine ⟨u :: us, List.forall_mem_cons.2 ⟨hu, hus⟩, ?_⟩
    rw [List.flatten_cons]
    rcases hs with rfl | ⟨he, rfl⟩
    · exact Or.inl rfl
    · exact Or.inr ⟨he, (List.append_assoc _ _ _).symm⟩
  fun_induction hasLoneQuote escapes t with
  | case1 => exact ⟨[], nofun, Or.inl rfl⟩
  | case2 c =>
    have hc : c ≠ '\'' := by simpa using h
    by_cases he : escapes = true ∧ c = '\\'
    · obtain ⟨he, rfl⟩ := he
      exact ⟨[], nofun, Or.inr ⟨he, rfl⟩⟩
    · exact hcons (.plain hc fun hesc hb => he ⟨hesc, hb⟩) ⟨[], nofun, Or.inl rfl⟩
  | case3 c d t he ih =>
    obtain ⟨hesc, hc⟩ := Bool.and_eq_true_iff.1 he
    obtain rfl : c = '\\' := by simpa using hc
    exact hcons (.escaped d hesc) (ih h)
  | case4 t _ ih => exact hcons .pair (ih h)
  | case5 => cases h
  | case6 c d t he hc ih =>
    have hplain : escapes = true → c ≠ '\\' := by simpa using he
    exact hcons (.plain hc hplain) (ih h)

/-- The body of a string is what stands before its last quote, if it has no lone quote. -/
theorem body_eq_ok_iff (opening : Text) {s inner : Text} {escapes : Bool} :
    body opening.length escapes (opening ++ s) = .ok inner ↔
      s = inner ++ ['\''] ∧ hasLoneQuote escapes inner = false := by
  constructor
  · intro h
    obtain ⟨front, rfl⟩ : ∃ front, s = front ++ ['\''] := by
      unfold body at h
      split at h
      · cases h
      · next hends =>
        rw [not_or, not_not, List.length_append] at hends
        have hne : s ≠ [] := by
          rintro rfl
          exact hends.1 (Nat.le_refl _)
        rw [List.getLast?_append_of_ne_nil _ hne] at hends
        exact List.getLast?_eq_some_iff.1 hends.2
    rw [← List.append_assoc, body_concat] at h
    split at h
    · cases h
    · next hlone =>
      cases h
      exact ⟨rfl, Bool.eq_false_iff.2 hlone⟩
  · rintro ⟨rfl, hlone⟩
    rw [← List.append_assoc, body_concat, hlone]
    rfl

/-- **A string with escapes is read if it is whole units and a closing quote.** -/
theorem exists_unquoteExtended_iff (opening : Text) {s : Text} :
    (∃ v, unquoteExtended opening.length (opening ++ s) = .ok v) ↔
      ∃ us : List Text, (∀ u ∈ us, IsUnit '\'' true u) ∧ s = us.flatten ++ ['\''] := by
  constructor
  · rintro ⟨v, hv⟩
    unfold unquoteExtended at hv
    split at hv
    · cases hv
    · next inner hbody =>
      obtain ⟨rfl, hlone⟩ := (body_eq_ok_iff opening).1 hbody
      obtain ⟨us, hus, rfl | ⟨-, rfl⟩⟩ := exists_units_of_hasLoneQuote hlone
      · exact ⟨us, hus, rfl⟩
      · -- the last quote is escaped by a backslash that then escapes nothing
        have hnodigit : ∀ c ∈ ['\\'].head?, Escape.octalDigit? c = none := by
          intro c hc
          cases hc
          rfl
        have hdangling : (Escape.decode true (us.flatten ++ ['\\'])).dangling = true := by
          rw [dangling_decode_append hnodigit hus, Escape.decode.eq_def]
          rfl
        simp only [hdangling, if_true] at hv
        cases hv
  · rintro ⟨us, hus, rfl⟩
    have hbody := body_written opening hus
    rw [List.append_assoc] at hbody
    unfold unquoteExtended
    rw [hbody]
    simp only [dangling_decode_units hus, Bool.false_eq_true, if_false]
    exact ⟨_, rfl⟩

/-- **A string without escapes is read if it is whole units and a closing quote.** -/
theorem exists_unquoteStandard_iff {s : Text} :
    (∃ v, unquoteStandard ('\'' :: s) = .ok v) ↔
      ∃ us : List Text, (∀ u ∈ us, IsUnit '\'' false u) ∧ s = us.flatten ++ ['\''] := by
  constructor
  · rintro ⟨v, hv⟩
    unfold unquoteStandard at hv
    split at hv
    · cases hv
    · next inner hbody =>
      obtain ⟨rfl, hlone⟩ := (body_eq_ok_iff ['\'']).1 hbody
      obtain ⟨us, hus, rfl | ⟨hesc, -⟩⟩ := exists_units_of_hasLoneQuote hlone
      · exact ⟨us, hus, rfl⟩
      · cases hesc
  · rintro ⟨us, hus, rfl⟩
    have hbody := body_written ['\''] hus
    unfold unquoteStandard
    rw [show body 1 false ('\'' :: (us.flatten ++ ['\''])) = .ok us.flatten from hbody]
    exact ⟨_, rfl⟩

/-! ## Errors -/

theorem malformed_of_body {opening : Nat} {escapes : Bool} {t : Text} {e : Error}
    (h : body opening escapes t = .error e) : ∃ fault, e = .malformedLiteral t fault := by
  unfold body at h
  split at h
  · cases h
    exact ⟨_, rfl⟩
  · simp only at h
    split at h
    · cases h
      exact ⟨_, rfl⟩
    · cases h

theorem malformed_of_unquoteExtended {opening : Nat} {t : Text} {e : Error}
    (h : unquoteExtended opening t = .error e) : ∃ fault, e = .malformedLiteral t fault := by
  unfold unquoteExtended at h
  split at h
  · next hbody =>
    cases h
    exact malformed_of_body hbody
  · simp only at h
    split at h
    · cases h
      exact ⟨_, rfl⟩
    · cases h

theorem malformed_of_unquoteStandard {t : Text} {e : Error} (h : unquoteStandard t = .error e) :
    ∃ fault, e = .malformedLiteral t fault := by
  unfold unquoteStandard at h
  split at h
  · next hbody =>
    cases h
    exact malformed_of_body hbody
  · cases h

theorem malformed_of_unquoteDollar {t : Text} {e : Error} (h : unquoteDollar t = .error e) :
    ∃ fault, e = .malformedLiteral t fault := by
  unfold unquoteDollar at h
  split at h
  · cases h
  · split at h
    · cases h
    · cases h
      exact ⟨_, rfl⟩

/-- **A literal is refused as malformed, and for nothing else.** -/
theorem malformed_of_unquote {standardQuoting : Bool} {t : Text} {e : Error}
    (h : unquote standardQuoting t = .error e) : ∃ fault, e = .malformedLiteral t fault := by
  unfold unquote at h
  split at h
  · have hread := map_eq_error_iff.1 h
    split at hread
    · exact malformed_of_unquoteStandard hread
    · exact malformed_of_unquoteExtended hread
  · exact malformed_of_unquoteExtended (map_eq_error_iff.1 h)
  · exact malformed_of_unquoteExtended (map_eq_error_iff.1 h)
  · exact malformed_of_unquoteDollar (map_eq_error_iff.1 h)
  · cases h

/-! ## One literal -/

/-- Whether a text opens a string: with a quote, or with an `E` and a quote. -/
def OpensString (text : Text) : Prop :=
  (∃ s, text = '\'' :: s) ∨ ∃ c s, (c = 'E' ∨ c = 'e') ∧ text = c :: '\'' :: s

/-- **The reader and the rules accept the same strings.** -/
theorem exists_unquote_iff_string {standardQuoting : Bool} {text : Text} (h : OpensString text) :
    (∃ v, unquote standardQuoting text = .ok v) ↔
      Rule.string standardQuoting text = some text.length := by
  rcases h with ⟨s, rfl⟩ | ⟨c, s, hc, rfl⟩
  · have hrule : Rule.string standardQuoting ('\'' :: s)
        = quoted '\'' (!standardQuoting) ('\'' :: s) := by
      rw [Rule.string, if_neg (by decide)]
    rw [hrule, List.length_cons, quoted_eq_length_iff (by decide)]
    cases standardQuoting with
    | true => exact exists_map_ok_iff.trans exists_unquoteStandard_iff
    | false => exact exists_map_ok_iff.trans (exists_unquoteExtended_iff ['\''])
  · have hrule : Rule.string standardQuoting (c :: '\'' :: s) = some (c :: '\'' :: s).length ↔
        quoted '\'' true ('\'' :: s) = some (s.length + 1) := by
      rw [Rule.string, if_pos hc, Option.map_eq_some_iff]
      simp
    have hread : unquote standardQuoting (c :: '\'' :: s)
        = (unquoteExtended 2 (c :: '\'' :: s)).map some := by
      rcases hc with rfl | rfl <;> rfl
    rw [hrule, hread, quoted_eq_length_iff (by decide)]
    exact exists_map_ok_iff.trans (exists_unquoteExtended_iff [c, '\''])

end Literal

/-! ## Dollar tags -/

/-- Whether a text is a dollar tag: two dollar signs with a word between them, or nothing. -/
def IsDollarTag (tag : Text) : Prop :=
  ∃ w : Text, tag = '$' :: w ++ ['$'] ∧
    (w = [] ∨ (∃ c ∈ w.head?, isWordStart c = true) ∧ ∀ c ∈ w, isWordPart c = true)

/-- What the rule of tags finds is a tag. -/
theorem isDollarTag_of_dollarTag {t : Text} {n : Nat} (h : dollarTag t = some n) :
    IsDollarTag (t.take n) := by
  cases t with
  | nil => cases h
  | cons c t =>
    obtain ⟨rfl, hlt, hclose, rfl⟩ := dollarTag_eq_some_iff.1 h
    refine ⟨t.take (tagWord t), ?_, ?_⟩
    · rw [List.take_succ_cons, List.take_add_one, hclose]
      rfl
    · unfold tagWord
      split
      · next hstart =>
        obtain ⟨c, hc, hword⟩ := (Option.any_eq_true _ _).1 hstart
        refine Or.inr ⟨⟨c, ?_, hword⟩, fun x hx => mem_take_runLength hx⟩
        obtain ⟨t, rfl⟩ := List.head?_eq_some_iff.1 hc
        have hpart : isWordPart c = true := by
          simp only [isWordStart, isWordPart, Char.isAlphanum, Bool.or_eq_true] at hword ⊢
          exact hword.imp_left Or.inl
        simp [runLength, hpart]
      · exact Or.inl rfl

/--
**A text that opens a string is read if and only if it is one string token**, by the rule of
quoting of the dialect; otherwise it is refused as malformed. And a text that is one dollar quote is
read, by either rule of quoting, as what stands between its tags.
-/
theorem unquote_ok_iff_one_token (d : Dialect) (text : Text) :
    (Literal.OpensString text →
      ((∃ v, Literal.unquote d.standardQuoting text = .ok v) ↔ IsOneToken d .string text) ∧
      (¬IsOneToken d .string text → ∃ fault,
        Literal.unquote d.standardQuoting text = .error (.malformedLiteral text fault))) ∧
    (IsOneToken d .dollarString text →
      ∃ tag inner, IsDollarTag tag ∧ text = tag ++ inner ++ tag ∧
        ∀ standardQuoting, Literal.unquote standardQuoting text = .ok (some inner)) := by
  refine ⟨fun hopens => ?_, fun htoken => ?_⟩
  · have hiff : (∃ v, Literal.unquote d.standardQuoting text = .ok v) ↔
        IsOneToken d .string text := by
      rw [isOneToken_iff, scan?_eq_string_iff, Literal.exists_unquote_iff_string hopens]
    refine ⟨hiff, fun hno => ?_⟩
    cases hread : Literal.unquote d.standardQuoting text with
    | ok v => exact absurd (hiff.1 ⟨v, hread⟩) hno
    | error e =>
      obtain ⟨fault, rfl⟩ := Literal.malformed_of_unquote hread
      exact ⟨fault, rfl⟩
  · have hdollar := dollarQuoted_of_scan? (isOneToken_iff.1 htoken)
    obtain ⟨tag, inner, htext, htag⟩ := exists_tag_of_dollarQuoted hdollar
    rw [List.take_length] at htext htag
    have htake : text.take tag.length = tag := by
      rw [htext, List.append_assoc, List.take_left]
    refine ⟨tag, inner, htake ▸ isDollarTag_of_dollarTag htag, htext, fun standardQuoting => ?_⟩
    rw [htext] at htag ⊢
    exact Literal.unquote_between_tags standardQuoting htag

/--
A string that ends in an escaped quote is no literal by the one rule of quoting and is one by the
other, and a dollar quote holds a quote.
-/
theorem unquote_ok_iff_one_token_escaped :
    let text := "'é\\'".toList
    (Literal.OpensString text ∧ ¬IsOneToken .legacy .string text ∧
      (∃ fault, Literal.unquote false text = .error (.malformedLiteral text fault)) ∧
      IsOneToken .standard .string text ∧ ∃ v, Literal.unquote true text = .ok v) ∧
    IsOneToken .legacy .dollarString "$a$it's$a$".toList ∧
      ∃ tag inner, IsDollarTag tag ∧ "$a$it's$a$".toList = tag ++ inner ++ tag ∧
        ∀ standardQuoting,
          Literal.unquote standardQuoting "$a$it's$a$".toList = .ok (some inner) := by
  intro text
  have hopens : Literal.OpensString text := Or.inl ⟨_, rfl⟩
  have hlegacy : ¬IsOneToken .legacy .string text := fun h =>
    absurd (isOneToken_iff.1 h) (by decide +kernel)
  have hstandard : IsOneToken .standard .string text := isOneToken_iff.2 (by decide +kernel)
  have hdollar : IsOneToken .legacy .dollarString "$a$it's$a$".toList :=
    isOneToken_iff.2 (by decide +kernel)
  exact ⟨⟨hopens, hlegacy, ((unquote_ok_iff_one_token .legacy text).1 hopens).2 hlegacy,
      hstandard, ((unquote_ok_iff_one_token .standard text).1 hopens).1.2 hstandard⟩,
    hdollar, (unquote_ok_iff_one_token .legacy _).2 hdollar⟩

end SqlText
