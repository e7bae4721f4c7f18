import SqlText.Proofs.Escape
import SqlText.Proofs.Token.Written

/-!
# Names and literals read back

A name or a string that is made of whole units between its quotes is read. What is written is of that
shape, so unquoting takes back quoting: a written name reads as the name, and a written value as the
value, by either rule of quoting.

## Main statements

* `Identifier.unquote_units`, `Literal.unquote_extended`, `Literal.unquote_escaped`,
  `Literal.unquote_standard`: what whole units are read as.
* `Identifier.unquote_quote`: every name reads back.
* `Literal.unquote_quote`: every value reads back, the missing value too.
* `tokenAt_quoteText`: a written string is one token in any text, and reads back.
-/

namespace SqlText

open Text Rule

/-! ## Names -/

namespace Identifier

theorem isUpper_of_isBarePart {c : Char} (h : isBarePart c = true) : isUpper c = false := by
  have hrange : c.toNat = 95 ∨ 97 ≤ c.toNat ∧ c.toNat ≤ 122 ∨ 48 ≤ c.toNat ∧ c.toNat ≤ 57 := by
    simp only [isBarePart, Bool.or_eq_true, beq_iff_eq] at h
    rcases h with (rfl | h) | h
    · exact Or.inl rfl
    · exact Or.inr (Or.inl (lower_iff.1 h))
    · exact Or.inr (Or.inr (digit_iff.1 h))
  rw [isUpper_of_ascii (by omega), Bool.eq_false_iff]
  intro hu
  rw [upper_iff] at hu
  omega

theorem isBarePart_of_isBareStart {c : Char} (h : isBareStart c = true) : isBarePart c = true := by
  simp only [isBareStart, Bool.or_eq_true] at h
  simp only [isBarePart, Bool.or_eq_true]
  exact Or.inl h

/-- A name that is written bare consists of characters that may stand in one. -/
theorem isBarePart_of_isBare {n : Text} (h : isBare n = true) : ∀ c ∈ n, isBarePart c = true := by
  cases n with
  | nil => cases h
  | cons c n =>
    simp only [isBare, Bool.and_eq_true, List.all_eq_true] at h
    intro x hx
    rcases List.mem_cons.1 hx with rfl | hx
    · exact isBarePart_of_isBareStart h.1.1
    · exact h.1.2 x hx

/-- Whole units have their double quotes in pairs. -/
theorem quotesPaired_units {us : List Text} (hus : ∀ u ∈ us, IsUnit '"' false u) :
    quotesPaired us.flatten = true := by
  induction us with
  | nil => rfl
  | cons u us ih =>
    have hread := ih fun v hv => hus v (List.mem_cons_of_mem _ hv)
    rw [List.flatten_cons]
    cases hus u List.mem_cons_self with
    | @plain c hc _ =>
      rw [List.singleton_append]
      cases hf : us.flatten with
      | nil => simp [quotesPaired, hc]
      | cons x t =>
        rw [hf] at hread
        rw [quotesPaired, if_neg hc, hread]
    | pair => simpa [quotesPaired] using hread
    | escaped _ he => cases he

/-- Whole units in double quotes are read. -/
theorem unquote_units {us : List Text} (hus : ∀ u ∈ us, IsUnit '"' false u) :
    unquote ('"' :: us.flatten ++ ['"']) = .ok (undouble '"' us.flatten) := by
  have hlast : ('"' :: us.flatten ++ ['"']).getLast? = some '"' := List.getLast?_concat
  have hquoted : isQuoted ('"' :: us.flatten ++ ['"']) = true := by
    rw [isQuoted, hlast]
    simp
  rw [unquote, if_pos hquoted]
  simp [quotesPaired_units hus]

/-- A bare word is read, in lower case. -/
theorem unquote_word {w : Text} (hw : isWord w = true) : unquote w = .ok (Text.fold w) := by
  cases w with
  | nil => cases hw
  | cons c w =>
    rw [isWord, Bool.and_eq_true, List.all_eq_true] at hw
    have hc : c ≠ '"' := by
      rintro rfl
      exact absurd hw.1 (by decide)
    have hno : '"' ∉ w := fun hm => absurd (hw.2 '"' hm) (by decide)
    have hquoted : isQuoted (c :: w) = false := by simp [isQuoted, hc]
    rw [unquote, hquoted]
    simp [hc.symm, hno]

/-- **Every name reads back.** -/
theorem unquote_quote (n : Text) : unquote (quote n) = .ok n := by
  unfold quote
  split
  · next h =>
    have hpart := isBarePart_of_isBare h
    rw [unquote_word (isWord_of_isBare h),
      fold_of_no_upper fun c hc => isUpper_of_isBarePart (hpart c hc)]
  · obtain ⟨us, hus, hunits⟩ := exists_units_double '"' n
    rw [hus, unquote_units hunits, ← hus, undouble_double]

end Identifier

/-! ## Literals -/

namespace Literal

/-- A run of whole units has no quote that stands alone. -/
theorem hasLoneQuote_units {escapes : Bool} {us : List Text}
    (hus : ∀ u ∈ us, IsUnit '\'' escapes u) : hasLoneQuote escapes us.flatten = false := by
  induction us with
  | nil => rfl
  | cons u us ih =>
    have hread := ih fun v hv => hus v (List.mem_cons_of_mem _ hv)
    rw [List.flatten_cons]
    cases hus u List.mem_cons_self with
    | @plain c hc hb =>
      have he : ¬(escapes && c == '\\') = true := by simpa using hb
      rw [List.singleton_append]
      cases hf : us.flatten with
      | nil => simp [hasLoneQuote, hc]
      | cons x t =>
        rw [hf] at hread
        rw [hasLoneQuote, if_neg he, if_neg hc, hread]
    | pair => simpa [hasLoneQuote] using hread
    | escaped c he => simpa [hasLoneQuote, he] using hread

/-- A written character is decoded by itself, whatever follows. -/
theorem decode_quoteChar_append (c : Char) (t : Text) :
    Escape.decode true (quoteChar c ++ t) = (Escape.decode true t).push c := by
  unfold quoteChar
  split
  · next hq =>
    subst hq
    exact Escape.decode_pair t
  · next hq =>
    split
    · next hb =>
      subst hb
      exact Escape.decode_escape true rfl t
    · next hb => exact Escape.decode_plain true hb (fun _ => hq) t

/-- Decoding takes back the writing of characters. -/
theorem decode_quoteChar (t : Text) :
    Escape.decode true (t.flatMap quoteChar) = ⟨t, false⟩ :=
  Escape.decode_flatMap fun c _ => decode_quoteChar_append c

/-- Without backslashes only quotes are written twice. -/
theorem flatMap_quoteChar {t : Text} (ht : '\\' ∉ t) : t.flatMap quoteChar = double '\'' t := by
  induction t with
  | nil => rfl
  | cons c t ih =>
    rw [List.mem_cons, not_or] at ht
    rw [List.flatMap_cons, double_cons, ih ht.2, quoteChar, if_neg (Ne.symm ht.1)]

/-- The body of a string that ends in a quote, which must have no lone quote. -/
theorem body_concat (opening inner : Text) (escapes : Bool) :
    body opening.length escapes (opening ++ inner ++ ['\''])
      = if hasLoneQuote escapes inner then
          .error (.malformedLiteral (opening ++ inner ++ ['\'']) .loneQuote)
        else .ok inner := by
  have hlen : ¬(opening ++ inner ++ ['\'']).length ≤ opening.length := by
    simp only [List.length_append, List.length_singleton]
    omega
  have hlast : (opening ++ inner ++ ['\'']).getLast? = some '\'' := by simp
  have hinner : ((opening ++ inner ++ ['\'']).drop opening.length).dropLast = inner := by
    rw [List.append_assoc, List.drop_left, List.dropLast_concat]
  rw [body, if_neg (not_or.2 ⟨hlen, not_not_intro hlast⟩), hinner]

/-- The body of a written string is what was written between its quotes. -/
theorem body_written (opening : Text) {escapes : Bool} {us : List Text}
    (hus : ∀ u ∈ us, IsUnit '\'' escapes u) :
    body opening.length escapes (opening ++ us.flatten ++ ['\'']) = .ok us.flatten := by
  rw [body_concat, hasLoneQuote_units hus]
  rfl

section

variable {tail : Text} (htail : ∀ c ∈ tail.head?, Escape.octalDigit? c = none)

include htail

/-- Octal digits that belong to an escape are taken off in whole units. -/
theorem octal_units {us : List Text} (hus : ∀ u ∈ us, IsUnit '\'' true u) (more code : Nat) :
    ∃ vs : List Text, vs <:+ us ∧
      (Escape.octal more code (us.flatten ++ tail)).2 = vs.flatten ++ tail := by
  induction more generalizing code us with
  | zero =>
    refine ⟨us, List.suffix_refl us, ?_⟩
    rw [Escape.octal]
  | succ more ih =>
    cases us with
    | nil =>
      refine ⟨[], List.suffix_refl [], ?_⟩
      rw [List.flatten_nil, List.nil_append]
      cases tail with
      | nil => rfl
      | cons c tail => rw [Escape.octal, htail c rfl]
    | cons u us =>
      rw [List.flatten_cons, List.append_assoc]
      cases hus u List.mem_cons_self with
      | @plain c _ _ =>
        rw [List.singleton_append, Escape.octal]
        split
        · obtain ⟨vs, hvs, hrest⟩ := ih (fun v hv => hus v (List.mem_cons_of_mem _ hv)) _
          exact ⟨vs, hvs.trans (List.suffix_cons _ _), hrest⟩
        · exact ⟨[c] :: us, List.suffix_refl _, rfl⟩
      -- neither a quote nor a backslash is an octal digit
      | pair => exact ⟨['\'', '\''] :: us, List.suffix_refl _, rfl⟩
      | escaped c _ => exact ⟨['\\', c] :: us, List.suffix_refl _, rfl⟩

/-- **Escapes in whole units leave no backslash over**, so one is left over only behind them. -/
theorem dangling_decode_append {us : List Text} (hus : ∀ u ∈ us, IsUnit '\'' true u) :
    (Escape.decode true (us.flatten ++ tail)).dangling = (Escape.decode true tail).dangling := by
  -- an octal escape takes more than its own unit, so the induction is on the number of units
  induction hn : us.length using Nat.strongRecOn generalizing us with
  | ind n ih =>
    have hshorter : ∀ vs : List Text, vs <:+ us → vs.length < us.length →
        (Escape.decode true (vs.flatten ++ tail)).dangling = (Escape.decode true tail).dangling :=
      fun vs hvs hlt => ih vs.length (hn ▸ hlt) (fun v hv => hus v (hvs.subset hv)) rfl
    cases us with
    | nil => rfl
    | cons u us =>
      have hrest := hshorter us (List.suffix_cons u us) (Nat.lt_succ_self _)
      rw [List.flatten_cons, List.append_assoc]
      cases hus u List.mem_cons_self with
      | @plain c hc hb =>
        rw [List.singleton_append, Escape.decode_plain true (hb rfl) fun _ => hc]
        exact hrest
      | pair =>
        rw [List.cons_append, List.singleton_append, Escape.decode_pair]
        exact hrest
      | escaped c _ =>
        rw [List.cons_append, List.singleton_append, Escape.decode.eq_def]
        simp only [if_true]
        split
        · next d _ =>
          obtain ⟨vs, hvs, hread⟩ :=
            octal_units htail (fun v hv => hus v (List.mem_cons_of_mem _ hv)) 2 d
          rw [hread]
          exact hshorter vs (hvs.trans (List.suffix_cons _ _)) (Nat.lt_succ_of_le hvs.length_le)
        · exact hrest

end

theorem dangling_decode_units {us : List Text} (hus : ∀ u ∈ us, IsUnit '\'' true u) :
    (Escape.decode true us.flatten).dangling = false := by
  have hnodigit : ∀ c ∈ ([] : Text).head?, Escape.octalDigit? c = none := nofun
  have hnone := dangling_decode_append hnodigit hus
  rw [List.append_nil] at hnone
  rw [hnone, Escape.decode]

/-- Whole units after an `E` are read with their escapes, by either rule of quoting. -/
theorem unquote_extended (standardQuoting : Bool) {c : Char} (hc : c = 'E' ∨ c = 'e')
    {us : List Text} (hus : ∀ u ∈ us, IsUnit '\'' true u) :
    unquote standardQuoting (c :: '\'' :: us.flatten ++ ['\''])
      = .ok (some (Escape.decode true us.flatten).text) := by
  have hbody := body_written [c, '\''] hus
  simp only [List.length_cons, List.length_nil, List.cons_append, List.nil_append] at hbody
  rcases hc with rfl | rfl <;>
    simp [unquote, unquoteExtended, hbody, dangling_decode_units hus, Except.map]

/-- Whole units are read with their escapes where plain strings have them. -/
theorem unquote_escaped {us : List Text} (hus : ∀ u ∈ us, IsUnit '\'' true u) :
    unquote false ('\'' :: us.flatten ++ ['\''])
      = .ok (some (Escape.decode true us.flatten).text) := by
  have hbody := body_written ['\''] hus
  simp only [List.length_cons, List.length_nil, List.cons_append, List.nil_append] at hbody
  simp [unquote, unquoteExtended, hbody, dangling_decode_units hus, Except.map]

/-- Whole units without escapes are read with each pair of quotes as one. -/
theorem unquote_standard {us : List Text} (hus : ∀ u ∈ us, IsUnit '\'' false u) :
    unquote true ('\'' :: us.flatten ++ ['\'']) = .ok (some (undouble '\'' us.flatten)) := by
  have hbody := body_written ['\''] hus
  simp only [List.length_cons, List.length_nil, List.cons_append, List.nil_append] at hbody
  simp [unquote, unquoteStandard, hbody, Except.map]

/-- **Every value reads back**, by either rule of quoting. -/
theorem unquote_quote (standardQuoting : Bool) (v : Option Text) :
    unquote standardQuoting (quote v) = .ok v := by
  cases v with
  | none => rfl
  | some t =>
    obtain ⟨us, hus, hunits⟩ := exists_units_quoteChar true (t := t) (Or.inl rfl)
    have hdecode : (Escape.decode true us.flatten).text = t := by
      rw [← hus, decode_quoteChar]
    rw [quote, quoteText]
    -- a text with a backslash is written with escapes, and then both rules read it alike
    by_cases hb : t.contains '\\' = true
    · rw [if_pos hb, hus, List.singleton_append]
      exact (unquote_extended standardQuoting (Or.inl rfl) hunits).trans (by rw [hdecode])
    · have hno : '\\' ∉ t := by simpa using hb
      rw [if_neg hb, List.nil_append]
      cases standardQuoting with
      | true =>
        obtain ⟨vs, hvs, hunits'⟩ := exists_units_quoteChar false (Or.inr hno)
        rw [hvs, unquote_standard hunits', ← hvs, flatMap_quoteChar hno, undouble_double]
      | false => rw [hus, unquote_escaped hunits, hdecode]

/-- Values that are written alike are equal. -/
theorem quote_injective {v w : Option Text} (h : quote v = quote w) : v = w := by
  have hread := unquote_quote true v
  rw [h, unquote_quote] at hread
  exact (Except.ok.inj hread).symm

end Literal

/--
**A written string is one token in any text, and reads back.** Whatever stands before it and behind
it, in each dialect the token at its place is a string with exactly its text, unless a quote follows,
and by either rule of quoting that text is read as the value. The missing value reads back too, and
no string is written like it.
-/
theorem tokenAt_quoteText (d : Dialect) (v before behind : Text)
    (hbehind : behind.head? ≠ some '\'') :
    (∃ t : Token,
      tokenAt d (before ++ Literal.quote (some v) ++ behind) (byteSize before) = .token t ∧
      t.kind = .string ∧ t.text = Literal.quote (some v) ∧ t.start = byteSize before ∧
      t.stop = byteSize before + byteSize (Literal.quote (some v)) ∧
      ∀ standardQuoting, Literal.unquote standardQuoting t.text = .ok (some v)) ∧
    (∀ standardQuoting, Literal.unquote standardQuoting (Literal.quote none) = .ok none) ∧
    Literal.quote (some v) ≠ Literal.quote none := by
  refine ⟨?_, fun standardQuoting => Literal.unquote_quote standardQuoting none, fun h => ?_⟩
  · have hstring := string_quoteText d.standardQuoting v hbehind
    refine ⟨_, tokenAt_append (scan?_of_string hstring) before, rfl, rfl, rfl, rfl, ?_⟩
    exact fun standardQuoting => Literal.unquote_quote standardQuoting (some v)
  · cases Literal.quote_injective h

/-- A value that ends in a backslash and a quote, between an open quote and a comma. -/
theorem tokenAt_quoteText_backslash :
    (",".toList : Text).head? ≠ some '\'' ∧
    ∃ t : Token,
      tokenAt .standard ("'é ".toList ++ Literal.quote (some "it's \\'".toList) ++ ",".toList) 4
        = .token t ∧
      t.kind = .string ∧ t.text = "E'it''s \\\\'''".toList ∧
      ∀ standardQuoting, Literal.unquote standardQuoting t.text = .ok (some "it's \\'".toList) := by
  have hbehind : (",".toList : Text).head? ≠ some '\'' := by decide
  obtain ⟨⟨t, ht, hkind, htext, -, -, hread⟩, -⟩ :=
    tokenAt_quoteText .standard "it's \\'".toList "'é ".toList ",".toList hbehind
  exact ⟨hbehind, t, ht, hkind, htext.trans (by decide), hread⟩

end SqlText
