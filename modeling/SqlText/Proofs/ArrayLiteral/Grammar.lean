import Mathlib.Data.List.TakeWhile
import SqlText.Proofs.ArrayLiteral

/-!
# The syntax of arrays

Which texts are arrays, said apart from the reader: dimensions or nothing, and between braces
elements with commas between them. An element stands in double quotes, where a backslash takes the
next character with it, or it is a run of characters that are none of the four marks.

The reader finds the end of each element by itself and then looks for a comma. It accepts exactly
these texts, since a quoted element ends at the first quote that no backslash takes, and a bare one
can only be followed by a mark.

## Main statements

* `closeElement_eq_some_iff`: a quoted element ends at its first free quote.
* `exists_of_element`, `element_append`: an element is taken off the front.
* `elements_eq_ok_iff`: elements with commas between them.
* `unquote_eq_ok_iff`: what is read is the arrays.
* `exists_invalidArray_iff`: every other text is refused as no array.
-/

namespace SqlText

open Text

namespace ArrayLiteral

/-! ## The grammar -/

/-- What can stand between double quotes. -/
inductive QuotedBody : Text → Prop
  | nil : QuotedBody []
  | plain {c : Char} {t : Text} : c ≠ '"' → c ≠ '\\' → QuotedBody t → QuotedBody (c :: t)
  | escaped {c : Char} {t : Text} : QuotedBody t → QuotedBody ('\\' :: c :: t)

/-- Whether a text can be an element without quotes. -/
def IsBare (t : Text) : Prop := t ≠ [] ∧ ∀ c ∈ t, c ≠ ',' ∧ c ≠ '"' ∧ c ≠ '{' ∧ c ≠ '}'

/-- The text of an element and its value. -/
inductive Element : Text → Option Text → Prop
  | quoted {raw : Text} : QuotedBody raw →
      Element ('"' :: (raw ++ ['"'])) (some (Escape.unescape raw))
  | missing {raw : Text} : IsBare raw → sameWord raw null = true → Element raw none
  | bare {raw : Text} : IsBare raw → sameWord raw null = false →
      Element raw (some (Escape.unescape raw))

/-- Whether a text is an array with these values. -/
def IsArray (t : Text) (values : List (Option Text)) : Prop :=
  ∃ (dimensions : Text) (elements : List Text), IsDimensions dimensions ∧
    t = dimensions ++ '{' :: List.intercalate [','] elements ++ ['}'] ∧
    List.Forall₂ Element elements values

/-! ## Elements -/

/-- **A quoted element ends at its first free quote.** -/
theorem closeElement_eq_some_iff {t raw rest : Text} :
    closeElement t = some (raw, rest) ↔ QuotedBody raw ∧ t = raw ++ '"' :: rest := by
  constructor
  · intro h
    fun_induction closeElement t generalizing raw with
    | case1 => cases h
    | case2 =>
      cases h
      exact ⟨.nil, rfl⟩
    | case3 => cases h
    | case4 d t =>
      cases h
      exact ⟨.nil, rfl⟩
    | case5 d t hd ih =>
      obtain ⟨⟨raw', rest'⟩, hclose, he⟩ := Option.map_eq_some_iff.1 h
      cases he
      obtain ⟨hbody, rfl⟩ := ih hclose
      exact ⟨.escaped hbody, rfl⟩
    | case6 c d t hquote hslash ih =>
      obtain ⟨⟨raw', rest'⟩, hclose, he⟩ := Option.map_eq_some_iff.1 h
      cases he
      obtain ⟨hbody, ht⟩ := ih hclose
      exact ⟨.plain hquote hslash hbody, by rw [ht, List.cons_append]⟩
  · rintro ⟨hbody, rfl⟩
    induction hbody with
    | nil => cases rest <;> rfl
    | @plain c raw hquote hslash _ ih =>
      -- behind a plain character stands at least the closing quote
      obtain ⟨d, u, hu⟩ : ∃ d u, raw ++ '"' :: rest = d :: u :=
        List.exists_cons_of_ne_nil (by simp)
      rw [hu] at ih
      rw [List.cons_append, hu, closeElement, if_neg hquote, if_neg hslash, ih]
      rfl
    | escaped _ ih =>
      rw [List.cons_append, List.cons_append, closeElement, if_neg (by decide), if_pos rfl, ih]
      rfl

theorem isBarePart_iff {c : Char} :
    isBarePart c = true ↔ c ≠ ',' ∧ c ≠ '"' ∧ c ≠ '{' ∧ c ≠ '}' := by
  simp [isBarePart, and_assoc]

/-- A bare element has the value that is read from it. -/
theorem element_bareValue {raw : Text} (h : IsBare raw) : Element raw (bareValue raw) := by
  unfold bareValue
  split
  · next hnull => exact .missing h hnull
  · next hnull => exact .bare h (by simpa using hnull)

/-- **What is read as an element is one**, and the rest is left. -/
theorem exists_of_element {t rest : Text} {v : Option Text} (h : element t = .ok (v, rest)) :
    ∃ raw, Element raw v ∧ t = raw ++ rest := by
  unfold element at h
  split at h
  · next hquote =>
    obtain ⟨t, rfl⟩ : ∃ u, t = '"' :: u := List.head?_eq_some_iff.1 hquote
    split at h
    · cases h
    · next raw rest' hclose =>
      cases h
      obtain ⟨hbody, ht⟩ := closeElement_eq_some_iff.1 hclose
      refine ⟨_, .quoted hbody, ?_⟩
      rw [List.tail_cons] at ht
      rw [ht, List.cons_append, List.append_assoc, List.singleton_append]
  · split at h
    · cases h
    · next hne =>
      cases h
      refine ⟨_, element_bareValue ⟨by simpa using hne, fun c hc => ?_⟩,
        List.takeWhile_append_dropWhile.symm⟩
      exact isBarePart_iff.1 (List.mem_takeWhile_imp hc)

/-- **An element is read up to its end**, if a comma or nothing follows. -/
theorem element_append {raw rest : Text} {v : Option Text} (h : Element raw v)
    (hrest : ∀ c ∈ rest.head?, c = ',') : element (raw ++ rest) = .ok (v, rest) := by
  have hbare : ∀ {raw : Text}, IsBare raw → element (raw ++ rest) = .ok (bareValue raw, rest) := by
    intro raw hraw
    refine element_bare hraw.1 (fun c hc => isBarePart_iff.2 (hraw.2 c hc)) fun c hc => ?_
    rw [hrest c hc]
    rfl
  cases h with
  | @quoted raw hbody =>
    have hclose : closeElement (raw ++ '"' :: rest) = some (raw, rest) :=
      closeElement_eq_some_iff.2 ⟨hbody, rfl⟩
    rw [List.cons_append, List.append_assoc, List.singleton_append, element,
      if_pos List.head?_cons, List.tail_cons, hclose]
  | missing hraw hnull => rw [hbare hraw, bareValue, if_pos hnull]
  | bare hraw hnull => rw [hbare hraw, bareValue, if_neg (by simp [hnull])]

/-! ## Lists of elements -/

/-- **What is read as elements is elements with commas between them**, at least one. -/
theorem elements_eq_ok_iff {stop : Nat} {t : Text} {values : List (Option Text)} :
    elements stop t = .ok values ↔
      values ≠ [] ∧ ∃ es, t = List.intercalate [','] es ∧ List.Forall₂ Element es values := by
  constructor
  · intro h
    fun_induction elements stop t generalizing values with
    | case1 t fault hread => cases h
    | case2 t value hread =>
      cases h
      obtain ⟨raw, hraw, rfl⟩ := exists_of_element hread
      exact ⟨List.cons_ne_nil _ _, [raw], by simp, .cons hraw .nil⟩
    | case3 t value rest hread ih =>
      obtain ⟨values', hrest, rfl⟩ := map_eq_ok_iff.1 h
      obtain ⟨raw, hraw, rfl⟩ := exists_of_element hread
      obtain ⟨hne, es, rfl, hes⟩ := ih hrest
      have hes' : es ≠ [] := by
        rintro rfl
        exact hne (List.forall₂_nil_left_iff.1 hes)
      refine ⟨List.cons_ne_nil _ _, raw :: es, ?_, .cons hraw hes⟩
      rw [List.intercalate_cons_of_ne_nil hes', List.append_assoc, List.singleton_append]
    | case4 t value c rest hread hcomma => cases h
  · rintro ⟨hne, es, rfl, hes⟩
    induction hes with
    | nil => exact absurd rfl hne
    | @cons raw value es values hraw hes ih =>
      cases hes with
      | nil =>
        have hread : element (raw ++ []) = .ok (value, []) := element_append hraw nofun
        rw [List.append_nil] at hread
        rw [List.intercalate_singleton]
        exact elements_of_last stop hread
      | cons hraw' hes =>
        have hcomma : ∀ u : Text, ∀ c ∈ (',' :: u).head?, c = ',' := by
          rintro u c ⟨⟩
          rfl
        rw [List.intercalate_cons_cons, List.append_assoc, List.singleton_append,
          elements_of_comma stop (element_append hraw (hcomma _)), ih (List.cons_ne_nil _ _)]
        rfl

/-- Elements are refused only as no array. -/
theorem exists_invalidArray_of_elements {stop : Nat} {t : Text} {e : Error}
    (h : elements stop t = .error e) : ∃ fault position, e = .invalidArray fault position := by
  fun_induction elements stop t with
  | case1 t fault hread => exact ⟨fault, _, (Except.error.inj h).symm⟩
  | case2 t value hread => cases h
  | case3 t value rest hread ih => exact ih (map_eq_error_iff.1 h)
  | case4 t value c rest hread hcomma => exact ⟨_, _, (Except.error.inj h).symm⟩

/-! ## Arrays -/

/-- A text that starts and ends as an array is dimensions, a brace, a body and a brace. -/
theorem exists_of_isEnclosed {t : Text} (h : isEnclosed t = true) (hopen : '{' ∈ t) :
    ∃ dimensions body, IsDimensions dimensions ∧ t = dimensions ++ '{' :: body ++ ['}'] := by
  simp only [isEnclosed, Bool.and_eq_true, Bool.or_eq_true, beq_iff_eq] at h
  obtain ⟨hhead, hlast⟩ := h
  obtain ⟨dimensions, rest, rfl, hno⟩ := List.eq_append_cons_of_mem hopen
  have hdimensions : IsDimensions dimensions := by
    cases dimensions with
    | nil => exact Or.inl rfl
    | cons c d =>
      refine Or.inr ⟨?_, hno⟩
      have hc : c ≠ '{' := fun hc => hno (hc ▸ List.mem_cons_self)
      simpa [hc] using hhead
  rcases List.eq_nil_or_concat' rest with rfl | ⟨body, c, rfl⟩
  · -- the opening brace is not the closing one
    rw [List.getLast?_concat] at hlast
    cases hlast
  · have hc : c = '}' := by
      rw [← List.cons_append, ← List.append_assoc, List.getLast?_concat] at hlast
      exact Option.some.inj hlast
    exact ⟨dimensions, body, hdimensions, by simp [hc]⟩

theorem unquote_of_not_mem {t : Text} (h : isEnclosed t = true) (hopen : '{' ∉ t) :
    unquote t = .error (.invalidArray .noOpeningBrace 0) := by
  have hdrop : t.dropWhile (· != '{') = [] := by
    refine List.dropWhile_eq_nil_iff.2 fun c hc => bne_iff_ne.2 ?_
    rintro rfl
    exact hopen hc
  rw [unquote, if_pos h, hdrop]

/-- A text is enclosed as an array is, or it is refused. -/
theorem enclosed_or_refused (t : Text) :
    (∃ dimensions body, IsDimensions dimensions ∧ t = dimensions ++ '{' :: body ++ ['}']) ∨
      ∃ fault, unquote t = .error (.invalidArray fault 0) := by
  by_cases henclosed : isEnclosed t = true
  · by_cases hopen : '{' ∈ t
    · exact Or.inl (exists_of_isEnclosed henclosed hopen)
    · exact Or.inr ⟨.noOpeningBrace, unquote_of_not_mem henclosed hopen⟩
  · exact Or.inr ⟨.noBraces, if_neg henclosed⟩

/-- **What is read is the arrays**, with their values. -/
theorem unquote_eq_ok_iff {t : Text} {values : List (Option Text)} :
    unquote t = .ok values ↔ IsArray t values := by
  constructor
  · intro h
    rcases enclosed_or_refused t with ⟨dimensions, body, hd, rfl⟩ | ⟨fault, he⟩
    · rw [unquote_enclosed hd] at h
      split at h
      · next hempty =>
        cases h
        exact ⟨dimensions, [], hd, by rw [List.isEmpty_iff.1 hempty]; rfl, .nil⟩
      · obtain ⟨-, es, rfl, hes⟩ := elements_eq_ok_iff.1 h
        exact ⟨dimensions, es, hd, rfl, hes⟩
    · rw [he] at h
      cases h
  · rintro ⟨dimensions, es, hd, rfl, hes⟩
    rw [unquote_enclosed hd]
    cases hes with
    | nil => rfl
    | @cons raw value es values hraw hes =>
      -- nothing can be read from an empty text, and all elements are
      have hread : ∀ stop, elements stop (List.intercalate [','] (raw :: es))
          = .ok (value :: values) := fun stop =>
        elements_eq_ok_iff.2 ⟨List.cons_ne_nil _ _, raw :: es, rfl, .cons hraw hes⟩
      split
      · next hempty =>
        have hnone := hread 0
        rw [List.isEmpty_iff.1 hempty, elements_nil] at hnone
        cases hnone
      · exact hread _

theorem exists_invalidArray_of_unquote {t : Text} {e : Error} (h : unquote t = .error e) :
    ∃ fault position, e = .invalidArray fault position := by
  rcases enclosed_or_refused t with ⟨dimensions, body, hd, rfl⟩ | ⟨fault, he⟩
  · rw [unquote_enclosed hd] at h
    split at h
    · cases h
    · exact exists_invalidArray_of_elements h
  · rw [he] at h
    exact ⟨fault, 0, (Except.error.inj h).symm⟩

/-- **Every other text is refused as no array.** -/
theorem exists_invalidArray_iff {t : Text} :
    (∃ fault position, unquote t = .error (.invalidArray fault position)) ↔
      ¬∃ values, IsArray t values := by
  constructor
  · rintro ⟨fault, position, he⟩ ⟨values, hvalues⟩
    rw [unquote_eq_ok_iff.2 hvalues] at he
    cases he
  · intro hno
    cases hread : unquote t with
    | ok values => exact absurd ⟨values, unquote_eq_ok_iff.1 hread⟩ hno
    | error e =>
      obtain ⟨fault, position, rfl⟩ := exists_invalidArray_of_unquote hread
      exact ⟨fault, position, rfl⟩

end ArrayLiteral

end SqlText
