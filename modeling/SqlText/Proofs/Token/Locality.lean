import SqlText.Proofs.Statement.Calls
import SqlText.Proofs.Token.Truncation

/-!
# Tokens of a part of a source

Reading is local: between two ends of tokens a source may be cut out and read by itself, and its
tokens are the same, with offsets that count from the cut. So whoever reads a part of a source again
sees the tokens that were read in the whole.

## Main statements

* `tokenize_textOf`: some tokens in a row, read again from their text, are the same tokens.
* `tokenize_between_boundaries`: the same for the bytes between two ends of tokens.
-/

namespace SqlText

open Text Lexeme Statement

/-- The offsets between the tokens of a source: its start, its end and the end of each token. -/
def IsBoundary (d : Dialect) (source : Text) (a : Nat) : Prop :=
  a = 0 ∨ a = byteSize source ∨ ∃ t ∈ tokenize { dialect := d } source, t.stop = a

/-- The token with its offsets counted from `a` bytes further to the left. -/
def Token.shift (a : Nat) (t : Token) : Token := { t with start := a + t.start, stop := a + t.stop }

/-- Whether a token lies between two offsets. -/
def Token.isBetween (a b : Nat) (t : Token) : Bool := a ≤ t.start && t.stop ≤ b

/-! ## Lexemes in their places -/

theorem textOf_eq_spell (ts : List Token) : textOf ts = spell (ts.map Token.lexeme) := by
  rw [spell, List.flatMap_map]
  rfl

namespace Lexeme

/-- A placed token is a lexeme behind those before it. -/
theorem exists_of_mem_place {o : Options} {p n : Nat} {ls : List Lexeme} {t : Token}
    (h : t ∈ place o p n ls) :
    ∃ ms l ns, ls = ms ++ l :: ns ∧
      t = l.toToken o (p + byteSize (spell ms)) (n + (spell ms).length) := by
  induction ls generalizing p n with
  | nil => cases h
  | cons l ls ih =>
    have hmem : t = l.toToken o p n ∨ t ∈ place o (p + byteSize l.2) (n + l.2.length) ls := by
      rw [place] at h
      split at h
      · exact List.mem_cons.1 h
      · exact Or.inr h
    rcases hmem with rfl | hmem
    · exact ⟨[], l, ls, rfl, rfl⟩
    · obtain ⟨ms, m, ns, rfl, rfl⟩ := ih hmem
      refine ⟨l :: ms, m, ns, rfl, ?_⟩
      rw [spell_cons, byteSize_append, List.length_append, Nat.add_assoc, Nat.add_assoc]

/-- Placed tokens lie inside the text that their lexemes make up. -/
theorem bounds_of_mem_place {o : Options} {p n : Nat} {ls : List Lexeme} {t : Token}
    (h : t ∈ place o p n ls) : p ≤ t.start ∧ t.stop ≤ p + byteSize (spell ls) := by
  obtain ⟨ms, l, ns, rfl, rfl⟩ := exists_of_mem_place h
  simp only [toToken, spell_append, spell_cons, byteSize_append]
  omega

/-- A token of lexemes with characters takes some bytes. -/
theorem start_lt_stop_of_mem_place {o : Options} {p n : Nat} {ls : List Lexeme}
    (hls : ∀ l ∈ ls, l.2 ≠ []) {t : Token} (h : t ∈ place o p n ls) : t.start < t.stop := by
  obtain ⟨ms, l, ns, rfl, rfl⟩ := exists_of_mem_place h
  have hpos := List.length_pos_iff.2 (hls l (by simp))
  have hle := length_le_byteSize l.2
  simp only [toToken]
  omega

/-- Without locations, places further on are the same places moved. -/
theorem place_add {o : Options} (ho : o.showLocation = false) (a p n m : Nat) (ls : List Lexeme) :
    place o (a + p) n ls = (place o p m ls).map (Token.shift a) := by
  induction ls generalizing p n m with
  | nil => rfl
  | cons l ls ih =>
    simp only [place, Nat.add_assoc, ih (p + byteSize l.2) (n + l.2.length) (m + l.2.length)]
    split
    · simp [toToken, Token.shift, ho, Nat.add_assoc]
    · rfl

/-- Leaving out blanks takes them out of the tokens and moves nothing. -/
theorem place_ignoreBlanks (o : Options) (p n : Nat) (ls : List Lexeme) :
    place { o with ignoreBlanks := true } p n ls
      = (place { o with ignoreBlanks := false } p n ls).filter (fun t => !t.isBlank) := by
  induction ls generalizing p n with
  | nil => rfl
  | cons l ls ih =>
    simp only [place, ih, isKept, Bool.true_and, Bool.false_and, Bool.not_false, if_true,
      List.filter_cons]
    rfl

/-- A part of the tokens is a part of the lexemes in its place. -/
theorem place_eq_append {o : Options} (ho : o.ignoreBlanks = false) {p n : Nat} {ls : List Lexeme}
    {ts us : List Token} (h : place o p n ls = ts ++ us) :
    ∃ ms ns, ls = ms ++ ns ∧ ts = place o p n ms ∧
      us = place o (p + byteSize (spell ms)) (n + (spell ms).length) ns := by
  have hls : ls = ts.map Token.lexeme ++ us.map Token.lexeme := by
    have hmap := map_lexeme_place o p n ls
    rw [List.filter_eq_self.2 (by simp [isKept, ho]), h, List.map_append] at hmap
    exact hmap.symm
  have hlen : ∀ (p n : Nat) (ms : List Lexeme), (place o p n ms).length = ms.length := by
    intro p n ms
    rw [← List.length_map Token.lexeme, map_lexeme_place,
      List.filter_eq_self.2 (by simp [isKept, ho])]
  rw [hls, place_append] at h
  obtain ⟨hts, hus⟩ := List.append_inj h (by rw [hlen, List.length_map])
  exact ⟨_, _, hls, hts.symm, hus.symm⟩

end Lexeme

/-! ## Tokens in a row -/

/-- The texts of all tokens make up the source. -/
theorem textOf_tokenize_of_kept {o : Options} (ho : o.ignoreBlanks = false) (source : Text) :
    textOf (tokenize o source) = source := by
  rw [textOf_eq_spell, tokenize_eq_place, map_lexeme_place,
    List.filter_eq_self.2 (by simp [isKept, ho]), spell_lexemes]

/-- A token starts behind the tokens before it. -/
theorem start_of_append {d : Dialect} {source : Text} {before rest : List Token} {t : Token}
    (h : tokenize { dialect := d } source = before ++ t :: rest) :
    t.start = byteSize (textOf before) := by
  rw [tokenize_eq_place] at h
  obtain ⟨ls, ms, -, rfl, hrest⟩ := place_eq_append rfl h
  rw [textOf_eq_spell, map_lexeme_place, List.filter_eq_self.2 (by simp [isKept])]
  cases ms with
  | nil => cases hrest
  | cons l ms =>
    cases hrest
    exact Nat.zero_add _

/-- The lexemes around some tokens of a source. -/
theorem lexemes_around {o : Options} (ho : o.ignoreBlanks = false) {source : Text}
    {pre g post : List Token} (h : tokenize o source = pre ++ g ++ post) :
    ∃ ls ms ns, lexemes o.dialect source = ls ++ ms ++ ns ∧ pre = place o 0 0 ls ∧
      g = place o (byteSize (spell ls)) (spell ls).length ms := by
  rw [tokenize_eq_place] at h
  obtain ⟨lm, ns, hl, hpg, -⟩ := place_eq_append ho h
  obtain ⟨ls, ms, rfl, hpre, hg⟩ := place_eq_append ho hpg.symm
  rw [Nat.zero_add, Nat.zero_add] at hg
  exact ⟨ls, ms, ns, hl, hpre, hg⟩

/--
**Some tokens in a row, read again from their text, are the same tokens**, moved to the start of
that text. With blanks left out, the others are the same.
-/
theorem tokenize_textOf {d : Dialect} {source : Text} {pre g post : List Token}
    (h : tokenize { dialect := d } source = pre ++ g ++ post) :
    (tokenize { dialect := d } (textOf g)).map (Token.shift (byteSize (textOf pre))) = g ∧
    (tokenize { dialect := d, ignoreBlanks := true } (textOf g)).map
        (Token.shift (byteSize (textOf pre))) = g.filter (fun t => !t.isBlank) := by
  obtain ⟨ls, ms, ns, hl, rfl, rfl⟩ := lexemes_around rfl h
  have hkept : ∀ (p n : Nat) (ms : List Lexeme),
      (place { dialect := d } p n ms).map Token.lexeme = ms := by
    intro p n ms
    rw [map_lexeme_place, List.filter_eq_self.2 (by simp [isKept])]
  rw [textOf_eq_spell, textOf_eq_spell, hkept, hkept, tokenize_eq_place, tokenize_eq_place,
    lexemes_spell_infix hl]
  constructor
  · exact (place_add rfl _ 0 _ 0 ms).symm
  · rw [← place_add rfl _ 0 (spell ls).length 0 ms]
    exact place_ignoreBlanks { dialect := d } _ _ ms

/-! ## Bytes between two boundaries -/

/-- A boundary lies behind some lexemes of the source. -/
theorem IsBoundary.exists_lexemes {d : Dialect} {source : Text} {a : Nat}
    (h : IsBoundary d source a) :
    ∃ ls ms, lexemes d source = ls ++ ms ∧ a = byteSize (spell ls) := by
  rcases h with rfl | rfl | ⟨t, ht, rfl⟩
  · exact ⟨[], lexemes d source, rfl, rfl⟩
  · exact ⟨lexemes d source, [], (List.append_nil _).symm, by rw [spell_lexemes]⟩
  · rw [tokenize_eq_place] at ht
    obtain ⟨ls, l, ms, hl, rfl⟩ := exists_of_mem_place ht
    refine ⟨ls ++ [l], ms, by simpa using hl, ?_⟩
    simp [toToken, spell]

/-- Between two boundaries stand whole lexemes. -/
theorem exists_lexemes_between {d : Dialect} {source : Text} {a b : Nat}
    (ha : IsBoundary d source a) (hb : IsBoundary d source b) (hab : a ≤ b) :
    ∃ ls ms ns, lexemes d source = ls ++ ms ++ ns ∧ a = byteSize (spell ls) ∧
      b = a + byteSize (spell ms) := by
  obtain ⟨ls, ls', hl, rfl⟩ := ha.exists_lexemes
  obtain ⟨ks, ns, hk, rfl⟩ := hb.exists_lexemes
  have hls : ls <+: lexemes d source := ⟨ls', hl.symm⟩
  have hks : ks <+: lexemes d source := ⟨ns, hk.symm⟩
  rcases List.prefix_or_prefix_of_prefix hls hks with ⟨ms, rfl⟩ | ⟨ms, rfl⟩
  · exact ⟨ls, ms, ns, hk, rfl, by rw [spell_append, byteSize_append]⟩
  · -- `ks` ends no sooner than `ls` does, so nothing stands between them
    have hms : ms = [] := by
      rw [spell_append, byteSize_append] at hab
      cases ms with
      | nil => rfl
      | cons l ms =>
        have hne := ne_nil_of_mem_lexemes (d := d) (t := source) (l := l) (by rw [hl]; simp)
        have hpos := List.length_pos_iff.2 hne
        have hle := length_le_byteSize l.2
        rw [spell_cons, byteSize_append] at hab
        omega
    subst hms
    exact ⟨ks, [], ns, by simpa using hk, by simp, by simp⟩

theorem slice?_append (s t u : Text) :
    slice? (s ++ t ++ u) (byteSize s) (byteSize s + byteSize t) = some t := by
  have hfrom : fromByte? (s ++ t ++ u) (byteSize s) = some (t ++ u) := by
    rw [List.append_assoc, fromByte?_append]
  have hto : fromByte? (s ++ t ++ u) (byteSize s + byteSize t) = some u := by
    rw [← byteSize_append, fromByte?_append]
  rw [slice?, if_pos (Nat.le_add_right _ _), hfrom, hto]
  simp

/-- The tokens between two places are those of the lexemes between them. -/
theorem filter_isBetween_place {d : Dialect} {ls ms ns : List Lexeme}
    (h : ∀ l ∈ ls ++ ms ++ ns, l.2 ≠ []) :
    (place { dialect := d } 0 0 (ls ++ ms ++ ns)).filter
        (Token.isBetween (byteSize (spell ls)) (byteSize (spell ls) + byteSize (spell ms)))
      = place { dialect := d } (byteSize (spell ls)) (spell ls).length ms := by
  rw [place_append, place_append, List.filter_append, List.filter_append, Nat.zero_add,
    Nat.zero_add, Nat.zero_add, Nat.zero_add, spell_append, byteSize_append]
  have hbefore : (place { dialect := d } 0 0 ls).filter
      (Token.isBetween (byteSize (spell ls)) (byteSize (spell ls) + byteSize (spell ms))) = [] := by
    refine List.filter_eq_nil_iff.2 fun t ht => ?_
    have := bounds_of_mem_place ht
    have := start_lt_stop_of_mem_place (fun l hl => h l (by simp [hl])) ht
    simp only [Token.isBetween, Bool.and_eq_true, decide_eq_true_eq]
    omega
  have hinside : (place { dialect := d } (byteSize (spell ls)) (spell ls).length ms).filter
        (Token.isBetween (byteSize (spell ls)) (byteSize (spell ls) + byteSize (spell ms)))
      = place { dialect := d } (byteSize (spell ls)) (spell ls).length ms := by
    refine List.filter_eq_self.2 fun t ht => ?_
    have := bounds_of_mem_place ht
    simp only [Token.isBetween, Bool.and_eq_true, decide_eq_true_eq]
    omega
  have hbehind : ∀ n, (place { dialect := d }
      (byteSize (spell ls) + byteSize (spell ms)) n ns).filter
      (Token.isBetween (byteSize (spell ls)) (byteSize (spell ls) + byteSize (spell ms))) = [] := by
    refine fun n => List.filter_eq_nil_iff.2 fun t ht => ?_
    have := bounds_of_mem_place ht
    have := start_lt_stop_of_mem_place (fun l hl => h l (by simp [hl])) ht
    simp only [Token.isBetween, Bool.and_eq_true, decide_eq_true_eq]
    omega
  rw [hbefore, hinside, hbehind, List.nil_append, List.append_nil]

/--
**Reading is local to the boundaries of tokens.** The source between two boundaries, read by itself,
has the tokens that stand there, with offsets counted from the first boundary. So has the text of
every token, and that of every statement of a script: the check of a statement reads the very tokens
that the statement was cut from.
-/
theorem tokenize_between_boundaries (d : Dialect) (source : Text) :
    (∀ a b, IsBoundary d source a → IsBoundary d source b → a ≤ b →
      ∃ s, slice? source a b = some s ∧
        (tokenize { dialect := d } s).map (Token.shift a)
          = (tokenize { dialect := d } source).filter (Token.isBetween a b)) ∧
    (∀ t ∈ tokenize { dialect := d } source,
      tokenize { dialect := d } t.text = [{ t with start := 0, stop := byteSize t.text }]) ∧
    ∀ (standardQuoting : Bool) (k : Nat) (text : Text),
      Splitter.told ((Splitter.start standardQuoting source).answer k) = some text →
      ∃ pre g post, tokenize { dialect := { standardQuoting } } source = pre ++ g ++ post ∧
        text = textOf g ∧
        (tokenize { dialect := { standardQuoting }, ignoreBlanks := true } text).map
            (Token.shift (byteSize (textOf pre))) = g.filter (fun t => !t.isBlank) := by
  refine ⟨fun a b ha hb hab => ?_, fun t ht => ?_, fun standardQuoting k text h => ?_⟩
  · obtain ⟨ls, ms, ns, hl, rfl, rfl⟩ := exists_lexemes_between ha hb hab
    have hsource : source = spell ls ++ spell ms ++ spell ns := by
      rw [← spell_append, ← spell_append, ← hl, spell_lexemes]
    refine ⟨spell ms, by rw [hsource, slice?_append], ?_⟩
    rw [tokenize_eq_place, tokenize_eq_place, lexemes_spell_infix hl, hl,
      filter_isBetween_place (fun l hmem => ne_nil_of_mem_lexemes (hl ▸ hmem))]
    exact (place_add rfl _ 0 _ 0 ms).symm
  · rw [tokenize_eq_place] at ht
    obtain ⟨ls, l, ns, hl, rfl⟩ := exists_of_mem_place ht
    have hl' : lexemes d source = ls ++ [l] ++ ns := by rw [hl]; simp
    have hread := lexemes_spell_infix hl'
    rw [spell_cons, spell_nil, List.append_nil] at hread
    rw [tokenize_eq_place]
    change place { dialect := d } 0 0 (lexemes d l.2) = _
    rw [hread]
    simp [place, isKept, toToken]
  · obtain ⟨pre, g, post, hts, rfl⟩ := Splitter.exists_tokens_of_told h
    exact ⟨pre, g, post, hts, rfl, (tokenize_textOf hts).2⟩

/--
A source with a string that never closes and was closed at its last pair, behind a statement that is
refused.
-/
theorem tokenize_between_boundaries_unclosed :
    let source := "copy t from stdin;'a''b".toList
    (IsBoundary .legacy source 18 ∧ IsBoundary .legacy source 22 ∧
      ∃ s, slice? source 18 22 = some s ∧
        (tokenize { dialect := .legacy } s).map (Token.shift 18)
          = (tokenize { dialect := .legacy } source).filter (Token.isBetween 18 22)) ∧
    Splitter.told ((Splitter.start false source).answer 0) = some "copy t from stdin;".toList ∧
      ∃ pre g post, tokenize { dialect := .legacy } source = pre ++ g ++ post ∧
        "copy t from stdin;".toList = textOf g ∧
        (tokenize { dialect := .legacy, ignoreBlanks := true } "copy t from stdin;".toList).map
            (Token.shift (byteSize (textOf pre))) = g.filter (fun t => !t.isBlank) := by
  intro source
  have h18 : IsBoundary .legacy source 18 := Or.inr (Or.inr (by decide +kernel))
  have h22 : IsBoundary .legacy source 22 := Or.inr (Or.inr (by decide +kernel))
  have htold : Splitter.told ((Splitter.start false source).answer 0)
      = some "copy t from stdin;".toList := by decide +kernel
  have hlocal := tokenize_between_boundaries .legacy source
  exact ⟨⟨h18, h22, hlocal.1 18 22 h18 h22 (by decide)⟩, htold, hlocal.2.2 false 0 _ htold⟩

end SqlText
