import Mathlib.Data.List.Chain
import SqlText.Proofs.Token.Locality

/-!
# The stream of tokens

A cursor hands out the tokens of a source one call after another. Whatever the options, it stands
between two lexemes of the source at every moment (`Cursor.StandsIn`): what it has passed and what
it has left to read make up the source. A call keeps that, and so do all calls.

With blanks kept, the tokens partition the source: each starts where the one before it ends, and
their texts make up the source.

## Main statements

* `Cursor.next_cases`: a call gives the first of the tokens to come, or there are none.
* `Cursor.StandsIn.after`: along all calls a cursor stands between two lexemes.
* `Cursor.tokens_after`, `Cursor.answer_eq_getElem?`: the calls give the tokens in order and then
  nothing.
* `tokens_partition_source`: the stream loses nothing of the source.
-/

namespace SqlText

open Text Lexeme Statement

/-! ## Lexemes in a row -/

/-- Lexemes with characters are no more than the bytes of their text. -/
theorem length_le_byteSize_spell {ls : List Lexeme} (h : ∀ l ∈ ls, l.2 ≠ []) :
    ls.length ≤ byteSize (spell ls) := by
  induction ls with
  | nil => exact Nat.zero_le _
  | cons l ls ih =>
    have hpos := List.length_pos_iff.2 (h l List.mem_cons_self)
    have hle := length_le_byteSize l.2
    have hrest := ih fun m hm => h m (List.mem_cons_of_mem _ hm)
    rw [List.length_cons, spell_cons, byteSize_append]
    omega

namespace Lexeme

theorem place_nil (o : Options) (p n : Nat) : place o p n [] = [] := rfl

/-- Leaving out lexemes leaves fewer tokens. -/
theorem length_place_le (o : Options) (p n : Nat) (ls : List Lexeme) :
    (place o p n ls).length ≤ ls.length := by
  rw [← List.length_map Token.lexeme, map_lexeme_place]
  exact List.length_filter_le _ _

section

variable {o : Options} (ho : o.ignoreBlanks = false)

include ho

theorem place_cons (p n : Nat) (l : Lexeme) (ls : List Lexeme) :
    place o p n (l :: ls)
      = l.toToken o p n :: place o (p + byteSize l.2) (n + l.2.length) ls := by
  have hkept : l.isKept o = true := by simp [isKept, ho]
  rw [place, if_pos hkept]

/-- The first token starts where the lexemes start. -/
theorem start_of_head?_place {p n : Nat} {ls : List Lexeme} {t : Token}
    (h : t ∈ (place o p n ls).head?) : t.start = p := by
  cases ls with
  | nil => cases h
  | cons l ls =>
    rw [place_cons ho] at h
    cases h
    rfl

/-- The last token stops where the lexemes end. -/
theorem stop_of_getLast?_place {p n : Nat} {ls : List Lexeme} {t : Token}
    (h : t ∈ (place o p n ls).getLast?) : t.stop = p + byteSize (spell ls) := by
  rcases List.eq_nil_or_concat' ls with rfl | ⟨ls, l, rfl⟩
  · cases h
  · rw [place_append, place_cons ho, place_nil, List.getLast?_concat] at h
    cases h
    simp [toToken, Nat.add_assoc]

/-- Each token starts where the one before it stops. -/
theorem isChain_place (p n : Nat) (ls : List Lexeme) :
    (place o p n ls).IsChain (fun t u => u.start = t.stop) := by
  induction ls generalizing p n with
  | nil => exact .nil
  | cons l ls ih =>
    rw [place_cons ho, List.isChain_cons]
    exact ⟨fun u hu => start_of_head?_place ho hu, ih _ _⟩

/-- Behind some lexemes stands the end of a token. -/
theorem exists_stop_of_append (p n : Nat) {ls : List Lexeme} (hls : ls ≠ []) (ms : List Lexeme) :
    ∃ t ∈ place o p n (ls ++ ms), t.stop = p + byteSize (spell ls) := by
  obtain ⟨ls, l, rfl⟩ := (List.eq_nil_or_concat' ls).resolve_left hls
  refine ⟨l.toToken o (p + byteSize (spell ls)) (n + (spell ls).length), ?_, ?_⟩
  · rw [place_append, place_append, place_cons ho]
    simp
  · simp [toToken, Nat.add_assoc]

end

end Lexeme

namespace Cursor

/-! ## Calls -/

/-- The cursor after so many calls. -/
def after : Cursor → Nat → Cursor
  | c, 0 => c
  | c, k + 1 => c.next.2.after k

/-- The answer to the call that follows `k` calls. -/
def answer (c : Cursor) (k : Nat) : Option Token := (c.after k).next.1

theorem tokens_eq_of_next {c c' : Cursor} {t : Token} (h : c.next = (some t, c')) :
    c.tokens = t :: c'.tokens := by
  rw [tokens]
  split
  · next h' => rw [h] at h'; cases h'
  · next h' => rw [h] at h'; cases h'; rfl

theorem tokens_eq_nil {c : Cursor} (h : c.rest = []) : c.tokens = [] := by
  rw [tokens_eq_place, h, lexemes_nil]
  rfl

/-- A call that gives nothing has nothing left to read, before it and behind it. -/
theorem next_eq_none {c c' : Cursor} (h : c.next = (none, c')) : c.tokens = [] ∧ c'.rest = [] := by
  constructor
  · rw [tokens]
    split
    · rfl
    · next h' => rw [h] at h'; cases h'
  · fun_induction next c with
    | case1 c hc =>
      cases h
      exact advance?_eq_none_iff.1 hc
    | case2 c t c₁ hc _ ih => exact ih h
    | case3 => cases h

/-- **A call gives the first of the tokens to come, or there are none and never will be.** -/
theorem next_cases (c : Cursor) :
    (c.next.1 = none ∧ c.tokens = [] ∧ c.next.2.tokens = []) ∨
      ∃ t, c.next.1 = some t ∧ c.tokens = t :: c.next.2.tokens := by
  cases h : c.next with
  | mk answer c' =>
    cases answer with
    | none =>
      obtain ⟨htokens, hrest⟩ := next_eq_none h
      exact Or.inl ⟨rfl, htokens, tokens_eq_nil hrest⟩
    | some t => exact Or.inr ⟨t, rfl, tokens_eq_of_next h⟩

/-- After `k` calls the first `k` tokens are gone. -/
theorem tokens_after (c : Cursor) (k : Nat) : (c.after k).tokens = c.tokens.drop k := by
  induction k generalizing c with
  | zero => rfl
  | succ k ih =>
    show (c.next.2.after k).tokens = _
    rw [ih]
    rcases next_cases c with ⟨-, hc, hnext⟩ | ⟨t, -, hc⟩
    · rw [hc, hnext, List.drop_nil, List.drop_nil]
    · rw [hc, List.drop_succ_cons]

/-- **The calls give the tokens in order**, and nothing behind the last one. -/
theorem answer_eq_getElem? (c : Cursor) (k : Nat) : c.answer k = c.tokens[k]? := by
  have hdrop : c.tokens[k]? = (c.after k).tokens.head? := by
    rw [tokens_after, List.head?_drop]
  rw [hdrop, answer]
  rcases next_cases (c.after k) with ⟨hnone, htokens, -⟩ | ⟨t, hsome, htokens⟩
  · rw [hnone, htokens, List.head?_nil]
  · rw [hsome, htokens, List.head?_cons]

/-! ## Where a cursor stands -/

/-- Whether a cursor stands between two lexemes of a source. -/
def StandsIn (source : Text) (c : Cursor) : Prop :=
  ∃ ls, lexemes c.options.dialect source = ls ++ lexemes c.options.dialect c.rest ∧
    c.position = byteSize (spell ls)

theorem standsIn_start (o : Options) (source : Text) : StandsIn source (start o source) :=
  ⟨[], rfl, rfl⟩

/-- Reading a lexeme keeps a cursor between two lexemes. -/
theorem StandsIn.advance? {source : Text} {c c' : Cursor} {t : Token} (hc : StandsIn source c)
    (h : c.advance? = some (t, c')) : StandsIn source c' ∧ c'.options = c.options := by
  obtain ⟨ls, hls, hposition⟩ := hc
  obtain ⟨⟨k, n⟩, hscan, he⟩ := Option.map_eq_some_iff.1 h
  obtain ⟨-, rfl⟩ := Prod.mk.inj he
  refine ⟨⟨ls ++ [(k, c.rest.take n)], ?_, ?_⟩, rfl⟩
  · rw [hls, lexemes_eq_cons hscan, List.append_assoc, List.singleton_append]
  · simp [hposition]

/-- A call keeps a cursor between two lexemes, also when it passes over blanks. -/
theorem StandsIn.next {source : Text} {c : Cursor} (hc : StandsIn source c) :
    StandsIn source c.next.2 ∧ c.next.2.options = c.options := by
  fun_induction Cursor.next c with
  | case1 c _ => exact ⟨hc, rfl⟩
  | case2 c t c₁ hadvance _ ih =>
    obtain ⟨hstands, hoptions⟩ := hc.advance? hadvance
    rw [← hoptions]
    exact ih hstands
  | case3 c t c₁ hadvance _ => exact hc.advance? hadvance

/-- **Along all calls a cursor stands between two lexemes.** -/
theorem StandsIn.after {source : Text} {c : Cursor} (hc : StandsIn source c) (k : Nat) :
    StandsIn source (c.after k) ∧ (c.after k).options = c.options := by
  induction k generalizing c with
  | zero => exact ⟨hc, rfl⟩
  | succ k ih =>
    obtain ⟨hstands, hoptions⟩ := hc.next
    rw [← hoptions]
    exact ih hstands

/-- What a cursor has passed and what it has left make up the source. -/
theorem StandsIn.exists_passed {source : Text} {c : Cursor} (hc : StandsIn source c) :
    ∃ s, source = s ++ c.rest ∧ c.position = byteSize s := by
  obtain ⟨ls, hls, hposition⟩ := hc
  refine ⟨spell ls, ?_, hposition⟩
  rw [← spell_lexemes c.options.dialect source, hls, spell_append, spell_lexemes]

/-- A cursor stands at the start of the source or where a token ends. -/
theorem StandsIn.isBoundary {source : Text} {c : Cursor} (hc : StandsIn source c) {o : Options}
    (ho : o.ignoreBlanks = false) (hd : o.dialect = c.options.dialect) :
    c.position = 0 ∨ ∃ t ∈ tokenize o source, t.stop = c.position := by
  obtain ⟨ls, hls, hposition⟩ := hc
  by_cases hne : ls = []
  · rw [hposition, hne]
    exact Or.inl rfl
  · obtain ⟨t, ht, hstop⟩ :=
      exists_stop_of_append ho 0 0 hne (lexemes c.options.dialect c.rest)
    refine Or.inr ⟨t, ?_, ?_⟩
    · rw [tokenize_eq_place, hd, hls]
      exact ht
    · rw [hstop, hposition, Nat.zero_add]

/-- The tokens to come are no more than the bytes left. -/
theorem length_tokens_le (c : Cursor) : c.tokens.length ≤ c.sizeHint.2 := by
  have hlexemes : (lexemes c.options.dialect c.rest).length ≤ byteSize c.rest := by
    have hle := length_le_byteSize_spell
      (fun l hl => ne_nil_of_mem_lexemes (d := c.options.dialect) (t := c.rest) (l := l) hl)
    rwa [spell_lexemes] at hle
  rw [tokens_eq_place]
  exact Nat.le_trans (length_place_le _ _ _ _) hlexemes

end Cursor

/-! ## The tokens of a source -/

/-- A token has the text that stands at its offsets, and that text is not empty. -/
theorem slice?_of_mem_tokenize {o : Options} {source : Text} {t : Token}
    (h : t ∈ tokenize o source) : t.text ≠ [] ∧ slice? source t.start t.stop = some t.text := by
  rw [tokenize_eq_place] at h
  obtain ⟨ls, l, ms, hl, rfl⟩ := exists_of_mem_place h
  have hne : l.2 ≠ [] := ne_nil_of_mem_lexemes (d := o.dialect) (t := source) (by rw [hl]; simp)
  have hsource : source = spell ls ++ l.2 ++ spell ms := by
    rw [← spell_lexemes o.dialect source, hl, spell_append, spell_cons, List.append_assoc]
  refine ⟨hne, ?_⟩
  simp only [toToken, Nat.zero_add]
  rw [hsource]
  exact slice?_append _ _ _

/--
**The stream of tokens loses nothing of the source.** A cursor at the start of a source answers with
the tokens in order, after finitely many of them with nothing, and with nothing ever after. With
blanks kept the tokens partition the source. With all options, after any number of calls, the cursor
stands at the start of the source or where one of all its tokens ends, what it has left is the source
from there on, and the tokens to come are no more than it announces.
-/
theorem tokens_partition_source (o : Options) (source : Text) :
    ((∃ n, (Cursor.start o source).answer n = none) ∧
      ∀ k, (Cursor.start o source).answer k = (tokenize o source)[k]?) ∧
    (o.ignoreBlanks = false →
      (∀ t ∈ tokenize o source, t.text ≠ [] ∧ slice? source t.start t.stop = some t.text) ∧
      (∀ t ∈ (tokenize o source).head?, t.start = 0) ∧
      (tokenize o source).IsChain (fun t u => u.start = t.stop) ∧
      (∀ t ∈ (tokenize o source).getLast?, t.stop = byteSize source) ∧
      textOf (tokenize o source) = source) ∧
    ∀ k, let c := (Cursor.start o source).after k
      (c.position = 0 ∨
        ∃ t ∈ tokenize { o with ignoreBlanks := false } source, t.stop = c.position) ∧
      fromByte? source c.position = some c.rest ∧
      ((tokenize o source).drop k).length ≤ c.sizeHint.2 ∧
      (c.next.1 = none → ∀ j, k ≤ j → (Cursor.start o source).answer j = none) := by
  have hanswer := (Cursor.start o source).answer_eq_getElem?
  refine ⟨⟨⟨(tokenize o source).length, ?_⟩, hanswer⟩, fun ho => ?_, ?_⟩
  · rw [hanswer]
    exact List.getElem?_eq_none (Nat.le_refl _)
  · refine ⟨fun t ht => slice?_of_mem_tokenize ht, ?_, ?_, ?_, textOf_tokenize_of_kept ho source⟩
    · intro t ht
      rw [tokenize_eq_place] at ht
      exact start_of_head?_place ho ht
    · rw [tokenize_eq_place]
      exact isChain_place ho 0 0 _
    · intro t ht
      rw [tokenize_eq_place] at ht
      rw [stop_of_getLast?_place ho ht, spell_lexemes, Nat.zero_add]
  · intro k c
    obtain ⟨hstands, hoptions⟩ := (Cursor.standsIn_start o source).after k
    refine ⟨hstands.isBoundary rfl (by rw [hoptions]; rfl), ?_, ?_, ?_⟩
    · obtain ⟨s, hs, hposition⟩ := hstands.exists_passed
      have hfrom := fromByte?_append s ((Cursor.start o source).after k).rest
      rwa [← hs, ← hposition] at hfrom
    · have hle := ((Cursor.start o source).after k).length_tokens_le
      rwa [Cursor.tokens_after] at hle
    · intro hnone j hj
      rw [← Cursor.answer, hanswer, List.getElem?_eq_none_iff] at hnone
      rw [hanswer, List.getElem?_eq_none (Nat.le_trans hnone hj)]

/--
A source with a letter of two bytes, a comment, and a string that never closes and was closed at its
last pair.
-/
theorem tokens_partition_source_unclosed :
    let o : Options := { showLocation := true }
    let source := "é/*x*/'a''b".toList
    o.ignoreBlanks = false ∧
      (∃ t ∈ tokenize o source, t.text = "'a'".toList ∧
        slice? source t.start t.stop = some "'a'".toList) ∧
      (∃ t ∈ (tokenize o source).head?, t.start = 0 ∧ t.stop = 2) ∧
      (∃ t ∈ (tokenize o source).getLast?, t.text = "b".toList ∧ t.stop = byteSize source) ∧
      textOf (tokenize o source) = source ∧
      ((Cursor.start o source).after 5).next.1 = none ∧
      ∀ j, 5 ≤ j → (Cursor.start o source).answer j = none := by
  intro o source
  obtain ⟨-, hpartition, hmoments⟩ := tokens_partition_source o source
  obtain ⟨hslice, -, -, hlast, htext⟩ := hpartition rfl
  have hstring : ∃ t ∈ tokenize o source, t.text = "'a'".toList := by decide +kernel
  have hfirst : ∃ t ∈ (tokenize o source).head?, t.start = 0 ∧ t.stop = 2 := by decide +kernel
  have hname : ∃ t ∈ (tokenize o source).getLast?, t.text = "b".toList := by decide +kernel
  have hend : ((Cursor.start o source).after 5).next.1 = none := by decide +kernel
  obtain ⟨t, ht, hte⟩ := hstring
  obtain ⟨u, hu, hue⟩ := hname
  exact ⟨rfl, ⟨t, ht, hte, hte ▸ (hslice t ht).2⟩, hfirst, ⟨u, hu, hue, hlast u hu⟩, htext, hend,
    (hmoments 5).2.2.2 hend⟩

end SqlText
