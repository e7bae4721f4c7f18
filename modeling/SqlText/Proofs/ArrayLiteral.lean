import SqlText.ArrayLiteral
import SqlText.Proofs.Escape
import SqlText.Proofs.Result

/-!
# Arrays read back

An array is written element by element, with or without quotes as its characters ask for, and it is
read by looking for the end of each element. The end is where it was put: inside quotes every quote
of the text stands behind a backslash, and a bare element has no character that ends one. What
stands between is decoded by the general rules of escapes. A bare element has no backslash, and in
quotes only a quote and a backslash are escaped, which mean themselves.

## Main statements

* `closeElement_quoteChar`: a quoted element ends at its closing quote.
* `element_bare`: a bare element ends at the first character that cannot be in one.
* `element_quoteElement`: a written element is read, up to where it ends.
* `elements_quote`: so are elements with commas between them.
* `array_reads_back`: so is an array, also behind its dimensions.
-/

namespace SqlText

open Text

namespace ArrayLiteral

/-! ## Quoted elements -/

/-- A character in quotes is decoded by itself, whatever follows. -/
theorem decode_quoteChar (c : Char) (t : Text) :
    Escape.decode false (quoteChar c ++ t) = (Escape.decode false t).push c := by
  unfold quoteChar
  split
  · next hc =>
    -- neither of the two characters has a meaning of its own behind a backslash
    rcases hc with rfl | rfl
    · exact Escape.decode_escape false rfl t
    · exact Escape.decode_escape false rfl t
  · next hc => exact Escape.decode_plain false (fun hb => hc (Or.inr hb)) nofun t

theorem unescape_quoteChar (t : Text) : Escape.unescape (t.flatMap quoteChar) = t :=
  Escape.unescape_flatMap fun c _ => decode_quoteChar c

/-- **A quoted element ends at its closing quote**, whatever it holds. -/
theorem closeElement_quoteChar (t rest : Text) :
    closeElement (t.flatMap quoteChar ++ '"' :: rest) = some (t.flatMap quoteChar, rest) := by
  induction t with
  | nil => cases rest <;> rfl
  | cons c t ih =>
    rw [List.flatMap_cons, List.append_assoc, quoteChar]
    split
    · next hc =>
      rw [List.cons_append, List.singleton_append, closeElement, if_neg (by decide), if_pos rfl, ih]
      rfl
    · next hc =>
      -- the search looks at two characters; behind a plain one stands at least the closing quote
      obtain ⟨d, u, hu⟩ : ∃ d u, t.flatMap quoteChar ++ '"' :: rest = d :: u :=
        List.exists_cons_of_ne_nil (by simp)
      rw [hu] at ih
      rw [List.singleton_append, hu, closeElement, if_neg (fun h => hc (Or.inl h)),
        if_neg (fun h => hc (Or.inr h)), ih]
      rfl

/-! ## Bare elements -/

/-- **A bare element ends at the first character that cannot be in one.** -/
theorem element_bare {w rest : Text} (hne : w ≠ []) (hw : ∀ c ∈ w, isBarePart c = true)
    (hrest : ∀ c ∈ rest.head?, isBarePart c = false) :
    element (w ++ rest) = .ok (bareValue w, rest) := by
  have htake : (w ++ rest).takeWhile isBarePart = w := by
    rw [List.takeWhile_append_of_pos hw]
    cases rest with
    | nil => exact List.append_nil w
    | cons c rest => rw [List.takeWhile_cons, hrest c rfl, if_neg (by simp), List.append_nil]
  have hdrop : (w ++ rest).dropWhile isBarePart = rest := by
    rw [List.dropWhile_append_of_pos hw]
    cases rest with
    | nil => rfl
    | cons c rest => rw [List.dropWhile_cons, hrest c rfl, if_neg (by simp)]
  have hopen : ¬(w ++ rest).head? = some '"' := by
    obtain ⟨c, w, rfl⟩ := List.exists_cons_of_ne_nil hne
    intro h
    have hc : c = '"' := by simpa using h
    exact absurd (hw c List.mem_cons_self) (by rw [hc]; decide)
  rw [element, if_neg hopen, htake, hdrop, if_neg (by simpa using hne)]

/-- The characters that need no quotes can be part of a bare element, and start no escape. -/
theorem isBarePart_of_isPlain {c : Char} (h : isPlain c = true) :
    isBarePart c = true ∧ c ≠ '\\' := by
  have hne : ∀ x : Char, isPlain x = false → c ≠ x := by
    rintro x hx rfl
    rw [hx] at h
    cases h
  refine ⟨?_, hne '\\' (by decide)⟩
  simp [isBarePart, hne ',' (by decide), hne '"' (by decide), hne '{' (by decide),
    hne '}' (by decide)]

/-! ## Written elements -/

/-- **A written element is read**, up to where it ends. -/
theorem element_quoteElement (v : Option Text) {rest : Text}
    (hrest : ∀ c ∈ rest.head?, isBarePart c = false) :
    element (quoteElement v ++ rest) = .ok (v, rest) := by
  cases v with
  | none =>
    have hbare : null.all isBarePart = true := by decide
    exact element_bare (List.cons_ne_nil _ _) (List.all_eq_true.1 hbare) hrest
  | some t =>
    rw [quoteElement, quoteText]
    split
    · next h =>
      simp only [Bool.and_eq_true, Bool.not_eq_true', List.all_eq_true] at h
      obtain ⟨⟨hne, hplain⟩, hnull⟩ := h
      have hvalue : bareValue t = some t := by
        have hno : '\\' ∉ t := fun hb => (isBarePart_of_isPlain (hplain _ hb)).2 rfl
        rw [bareValue, hnull, Escape.unescape_of_not_mem hno]
        rfl
      have hbare : ∀ c ∈ t, isBarePart c = true :=
        fun c hc => (isBarePart_of_isPlain (hplain c hc)).1
      rw [element_bare (by simpa using hne) hbare hrest, hvalue]
    · rw [List.append_assoc, List.singleton_append, List.cons_append, element,
        if_pos List.head?_cons, List.tail_cons, closeElement_quoteChar]
      simp only [unescape_quoteChar]

/-- An element has a character, or quotes. -/
theorem elements_nil (stop : Nat) :
    elements stop [] = .error (.invalidArray .emptyElement stop) := by
  rw [elements]
  rfl

/-- The last element ends where the text does. -/
theorem elements_of_last (stop : Nat) {t : Text} {v : Option Text}
    (h : element t = .ok (v, [])) : elements stop t = .ok [v] := by
  rw [elements, h]

/-- An element before a comma is followed by the elements behind the comma. -/
theorem elements_of_comma (stop : Nat) {t rest : Text} {v : Option Text}
    (h : element t = .ok (v, ',' :: rest)) :
    elements stop t = (elements stop rest).map (v :: ·) := by
  rw [elements, h]
  exact if_pos rfl

/-- **Written elements with commas between them are read**, each in its place. -/
theorem elements_quote (stop : Nat) {values : List (Option Text)} (hne : values ≠ []) :
    elements stop (List.intercalate [','] (values.map quoteElement)) = .ok values := by
  induction values with
  | nil => exact absurd rfl hne
  | cons v values ih =>
    cases values with
    | nil =>
      have hread : element (quoteElement v ++ []) = .ok (v, []) := element_quoteElement v nofun
      rw [List.append_nil] at hread
      rw [List.map_singleton, List.intercalate_singleton]
      exact elements_of_last stop hread
    | cons w values =>
      have hcomma : ∀ c ∈ (',' :: List.intercalate [','] ((w :: values).map quoteElement)).head?,
          isBarePart c = false := by
        intro c hc
        cases hc
        rfl
      rw [List.map_cons, List.map_cons, List.intercalate_cons_cons, List.append_assoc,
        List.singleton_append, ← List.map_cons,
        elements_of_comma stop (element_quoteElement v hcomma), ih (List.cons_ne_nil _ _)]
      rfl

/-! ## Arrays -/

/-- Whether a text can stand before the opening brace: nothing, or dimensions. -/
def IsDimensions (d : Text) : Prop := d = [] ∨ d.head? = some '[' ∧ '{' ∉ d

instance : DecidablePred IsDimensions := fun d =>
  inferInstanceAs (Decidable (d = [] ∨ d.head? = some '[' ∧ '{' ∉ d))

theorem IsDimensions.not_mem {d : Text} (h : IsDimensions d) : '{' ∉ d := by
  rcases h with rfl | ⟨-, h⟩
  · exact List.not_mem_nil
  · exact h

/-- The elements of an array stand between its first opening brace and its end. -/
theorem unquote_enclosed {d : Text} (hd : IsDimensions d) (body : Text) :
    unquote (d ++ '{' :: body ++ ['}'])
      = if body.isEmpty then .ok []
        else elements (byteSize (d ++ '{' :: body ++ ['}']) - 1) body := by
  have henclosed : isEnclosed (d ++ '{' :: body ++ ['}']) = true := by
    have hlast : (d ++ '{' :: body ++ ['}']).getLast? = some '}' := List.getLast?_concat
    rw [isEnclosed, hlast]
    rcases hd with rfl | ⟨hhead, -⟩
    · rfl
    · simp [hhead]
  have hdrop : (d ++ '{' :: body ++ ['}']).dropWhile (· != '{') = '{' :: (body ++ ['}']) := by
    have hskip : ∀ c ∈ d, (c != '{') = true := by
      intro c hc
      rw [bne_iff_ne]
      rintro rfl
      exact hd.not_mem hc
    rw [List.append_assoc, List.dropWhile_append_of_pos hskip, List.cons_append,
      List.dropWhile_cons, if_neg (by simp)]
  rw [unquote, if_pos henclosed, hdrop]
  simp only [List.dropLast_concat]

end ArrayLiteral

open ArrayLiteral

/--
**Arrays read back.** Whatever the values are, missing or texts with any characters, and whatever
dimensions stand before the opening brace, reading the written array gives the values, each in its
place.
-/
theorem array_reads_back (values : List (Option Text)) (dimensions : Text)
    (hd : IsDimensions dimensions) :
    ArrayLiteral.unquote (dimensions ++ ArrayLiteral.quote values) = .ok values := by
  rw [ArrayLiteral.quote, ← List.append_assoc, unquote_enclosed hd]
  cases values with
  | nil => rfl
  | cons v values =>
    -- nothing can be read from an empty text, and all elements are
    have hread := fun stop => elements_quote stop (List.cons_ne_nil v values)
    split
    · next hempty =>
      have hnone := hread 0
      rw [List.isEmpty_iff.1 hempty, elements_nil] at hnone
      cases hnone
    · exact hread _

/-- A missing value among texts that are empty, spell it, or hold marks of the format. -/
theorem array_reads_back_marks :
    let values : List (Option Text) :=
      [none, some "Null".toList, some [], some "a,\"\x7d\\n\\101".toList, some "x_1".toList]
    let dimensions : Text := "[0:4]=".toList
    IsDimensions dimensions ∧
    ArrayLiteral.quote values = "\x7bNULL,\"Null\",\"\",\"a,\\\"\x7d\\\\n\\\\101\",x_1\x7d".toList ∧
    ArrayLiteral.unquote (dimensions ++ ArrayLiteral.quote values) = .ok values := by
  intro values dimensions
  have hd : IsDimensions dimensions := by decide
  exact ⟨hd, by decide, array_reads_back values dimensions hd⟩

end SqlText
