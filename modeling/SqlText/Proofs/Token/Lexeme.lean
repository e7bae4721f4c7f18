import SqlText.Token.Cursor

/-!
# Lexemes

A token is a lexeme with its place in the source. The lexemes depend on the text alone, so laws
about what is read are stated on them, and offsets are added afterwards (`place`).

## Main statements

* `spell_lexemes`: the lexemes of a text make it up.
* `lexemes_of_scan?`: a text that starts with a lexeme `s` has the lexeme `s` and then those of the
  rest. It is the step of every proof that reads a written text back.
* `tokenize_eq_place`: the tokens of a source are its lexemes in their places.
* `tokenAt_append`: the token at an offset is the first lexeme of what stands there.
-/

namespace SqlText

open Text

/-- A piece of a text: its kind and its characters. -/
abbrev Lexeme := Kind × Text

/-- The text that lexemes make up. -/
def spell (ls : List Lexeme) : Text := ls.flatMap Prod.snd

@[simp] theorem spell_nil : spell [] = [] := rfl

@[simp] theorem spell_cons (l : Lexeme) (ls : List Lexeme) : spell (l :: ls) = l.2 ++ spell ls := rfl

@[simp] theorem spell_append (ls ms : List Lexeme) : spell (ls ++ ms) = spell ls ++ spell ms :=
  List.flatMap_append

/-- The lexemes of a text in order, blanks included. -/
def lexemes (d : Dialect) (t : Text) : List Lexeme :=
  match _ : scan? d t with
  | none => []
  | some (k, n) => (k, t.take n) :: lexemes d (t.drop n)
termination_by t.length
decreasing_by
  rename_i h
  have := scan?_bounds h
  simp only [List.length_drop]
  omega

theorem lexemes_nil (d : Dialect) : lexemes d [] = [] := by
  rw [lexemes]
  split
  · rfl
  · next h =>
    rw [scan?_eq_none_iff.2 rfl] at h
    cases h

theorem lexemes_eq_cons {d : Dialect} {t : Text} {k : Kind} {n : Nat}
    (h : scan? d t = some (k, n)) : lexemes d t = (k, t.take n) :: lexemes d (t.drop n) := by
  rw [lexemes]
  split
  · next h' =>
    rw [h] at h'
    cases h'
  · next h' =>
    rw [h] at h'
    cases h'
    rfl

/-- **A lexeme at the start of a text is followed by the lexemes of the rest.** -/
theorem lexemes_of_scan? {d : Dialect} {s rest : Text} {k : Kind}
    (h : scan? d (s ++ rest) = some (k, s.length)) :
    lexemes d (s ++ rest) = (k, s) :: lexemes d rest := by
  rw [lexemes_eq_cons h, List.take_left, List.drop_left]

/-- The first lexeme of a text is the one that the rules find there. -/
theorem scan?_of_lexemes_eq_cons {d : Dialect} {t : Text} {l : Lexeme} {ls : List Lexeme}
    (h : lexemes d t = l :: ls) :
    ∃ rest, t = l.2 ++ rest ∧ scan? d t = some (l.1, l.2.length) ∧ lexemes d rest = ls := by
  rw [lexemes] at h
  split at h
  · cases h
  · next k n hs =>
    cases h
    have hn := (scan?_bounds hs).2
    refine ⟨t.drop n, (List.take_append_drop n t).symm, ?_, rfl⟩
    rw [hs, List.length_take, Nat.min_eq_left hn]

/-- **The lexemes of a text make it up.** -/
theorem spell_lexemes (d : Dialect) (t : Text) : spell (lexemes d t) = t := by
  fun_induction lexemes d t with
  | case1 t h => rw [scan?_eq_none_iff.1 h, spell_nil]
  | case2 t k n h ih => rw [spell_cons, ih, List.take_append_drop]

/-- Every lexeme has a character. -/
theorem ne_nil_of_mem_lexemes {d : Dialect} {t : Text} {l : Lexeme} (h : l ∈ lexemes d t) :
    l.2 ≠ [] := by
  fun_induction lexemes d t with
  | case1 => cases h
  | case2 t k n hs ih =>
    rcases List.mem_cons.1 h with rfl | h
    · have := scan?_bounds hs
      intro he
      have hlen := congrArg List.length he
      simp only [List.length_take, List.length_nil] at hlen
      omega
    · exact ih h

/-- Every lexeme of a text was found by the rules, before what follows it. -/
theorem scan?_of_mem_lexemes {d : Dialect} {t : Text} {l : Lexeme} (h : l ∈ lexemes d t) :
    ∃ rest, scan? d (l.2 ++ rest) = some (l.1, l.2.length) := by
  fun_induction lexemes d t with
  | case1 => cases h
  | case2 t k n hs ih =>
    rcases List.mem_cons.1 h with rfl | h
    · refine ⟨t.drop n, ?_⟩
      rw [List.take_append_drop, hs, List.length_take, Nat.min_eq_left (scan?_bounds hs).2]
    · exact ih h

/-- What follows some lexemes of a text is read as it is read in the text. -/
theorem lexemes_spell_right {d : Dialect} {t : Text} {ls ms : List Lexeme}
    (h : lexemes d t = ls ++ ms) : lexemes d (spell ms) = ms := by
  induction ls generalizing t with
  | nil =>
    have ht := spell_lexemes d t
    rw [h, List.nil_append] at ht
    rw [ht, h, List.nil_append]
  | cons l ls ih =>
    obtain ⟨rest, -, -, hrest⟩ := scan?_of_lexemes_eq_cons h
    exact ih hrest

/-! ## Places -/

namespace Token

/-- The lexeme of a token. -/
def lexeme (t : Token) : Lexeme := (t.kind, t.text)

theorem isSymbol_iff {t : Token} {s : Text} : t.isSymbol s = true ↔ t.lexeme = (.symbol, s) := by
  simp [isSymbol, lexeme]

/-- No token is two symbols at once. -/
theorem isSymbol_eq_false_of_ne {t : Token} {s : Text} (h : t.isSymbol s = true) (s' : Text)
    (hne : s ≠ s') : t.isSymbol s' = false := by
  simp only [isSymbol, Bool.and_eq_true, beq_iff_eq] at h
  simp [isSymbol, h.2, hne]

/-- No symbol is a word. -/
theorem isKeyword_eq_false_of_isSymbol {t : Token} {s : Text} (h : t.isSymbol s = true)
    (word : Text) : t.isKeyword word = false := by
  simp only [isSymbol, Bool.and_eq_true, beq_iff_eq] at h
  simp [isKeyword, h.1]

end Token

namespace Lexeme

/-- The token of a lexeme that follows `position` bytes and `seen` characters. -/
def toToken (o : Options) (position seen : Nat) (l : Lexeme) : Token :=
  { kind := l.1
    text := l.2
    start := position
    stop := position + byteSize l.2
    location := if o.showLocation then some (seen + l.2.length) else none }

@[simp] theorem lexeme_toToken (o : Options) (p n : Nat) (l : Lexeme) :
    (toToken o p n l).lexeme = l := rfl

/-- Whether the options ask for a lexeme. -/
def isKept (o : Options) (l : Lexeme) : Bool := !(o.ignoreBlanks && l.1 == .blank)

/-- The tokens of lexemes that follow `position` bytes and `seen` characters. -/
def place (o : Options) : (position seen : Nat) → List Lexeme → List Token
  | _, _, [] => []
  | position, seen, l :: ls =>
    let rest := place o (position + byteSize l.2) (seen + l.2.length) ls
    if l.isKept o then l.toToken o position seen :: rest else rest

/-- The lexemes of the tokens are those that the options ask for. -/
theorem map_lexeme_place (o : Options) (p n : Nat) (ls : List Lexeme) :
    (place o p n ls).map Token.lexeme = ls.filter (isKept o) := by
  induction ls generalizing p n with
  | nil => rfl
  | cons l ls ih =>
    rw [place]
    split
    · next hk => simp [hk, ih]
    · next hk => simp [hk, ih]

theorem place_append (o : Options) (p n : Nat) (ls ms : List Lexeme) :
    place o p n (ls ++ ms)
      = place o p n ls
        ++ place o (p + byteSize (spell ls)) (n + (spell ls).length) ms := by
  induction ls generalizing p n with
  | nil => simp [place]
  | cons l ls ih =>
    simp only [List.cons_append, place, ih, spell_cons, byteSize_append, List.length_append,
      Nat.add_assoc]
    split <;> rfl

end Lexeme

open Lexeme

namespace Cursor

/-- A lexeme that the options do not ask for is passed over. -/
theorem tokens_of_skipped {c c' : Cursor} {t : Token} (h : c.advance? = some (t, c'))
    (hskip : (c.options.ignoreBlanks && t.isBlank) = true) : c.tokens = c'.tokens := by
  have hnext : c.next = c'.next := by
    rw [next]
    split
    · next h' => rw [h] at h'; cases h'
    · next h' => rw [h] at h'; cases h'; rw [if_pos hskip]
  rw [tokens, tokens.eq_def c']
  -- both ask the same next token
  split <;> split <;> simp_all

/-- A lexeme that the options ask for is the first token. -/
theorem tokens_of_kept {c c' : Cursor} {t : Token} (h : c.advance? = some (t, c'))
    (hkeep : (c.options.ignoreBlanks && t.isBlank) = false) : c.tokens = t :: c'.tokens := by
  have hnext : c.next = (some t, c') := by
    rw [next]
    split
    · next h' => rw [h] at h'; cases h'
    · next h' => rw [h] at h'; cases h'; rw [hkeep]; rfl
  rw [tokens]
  split
  · next h' => rw [hnext] at h'; cases h'
  · next h' => rw [hnext] at h'; cases h'; rfl

/-- **The tokens from a cursor on are the lexemes of its text, in their places.** -/
theorem tokens_eq_place (c : Cursor) :
    c.tokens = place c.options c.position c.seen (lexemes c.options.dialect c.rest) := by
  obtain ⟨o, rest, p, n⟩ := c
  simp only
  fun_induction lexemes o.dialect rest generalizing p n with
  | case1 t h =>
    have hnext : (Cursor.mk o t p n).next = (none, ⟨o, t, p, n⟩) := by
      rw [next]
      split
      · rfl
      · next h' => simp [advance?, h] at h'
    rw [tokens]
    split
    · rfl
    · next h' => rw [hnext] at h'; cases h'
  | case2 t k m h ih =>
    have hadv : (Cursor.mk o t p n).advance?
        = some (toToken o p n (k, t.take m),
            ⟨o, t.drop m, p + byteSize (t.take m), n + (t.take m).length⟩) := by
      simp [advance?, h, toToken]
    rw [place]
    split
    · next hk => rw [tokens_of_kept hadv (Bool.not_eq_true' _ ▸ hk), ih]
    · next hk => rw [tokens_of_skipped hadv (by simpa [isKept, Token.isBlank, toToken] using hk), ih]

end Cursor

/-- **The tokens of a source are its lexemes in their places.** -/
theorem tokenize_eq_place (o : Options) (source : Text) :
    tokenize o source = place o 0 0 (lexemes o.dialect source) :=
  Cursor.tokens_eq_place _

/-- Every token of a source was found by the rules, before what follows it. -/
theorem scan?_of_mem_tokenize {o : Options} {source : Text} {t : Token}
    (h : t ∈ tokenize o source) :
    ∃ rest, scan? o.dialect (t.text ++ rest) = some (t.kind, t.text.length) := by
  have hmem : t.lexeme ∈ (tokenize o source).map Token.lexeme := List.mem_map_of_mem h
  rw [tokenize_eq_place, map_lexeme_place] at hmem
  exact scan?_of_mem_lexemes (List.mem_filter.1 hmem).1

/-! ## Reading at an offset -/

/-- **The token at an offset is the first lexeme of what stands there**, whatever stands before. -/
theorem tokenAt_append {d : Dialect} {s rest : Text} {k : Kind}
    (h : scan? d (s ++ rest) = some (k, s.length)) (before : Text) :
    tokenAt d (before ++ s ++ rest) (byteSize before)
      = .token (toToken { dialect := d } (byteSize before) 0 (k, s)) := by
  have hinside : ¬byteSize (before ++ s ++ rest) ≤ byteSize before := by
    have hpos := (scan?_bounds h).1
    have hle := length_le_byteSize s
    simp only [byteSize_append]
    omega
  have hfrom : fromByte? (before ++ s ++ rest) (byteSize before) = some (s ++ rest) := by
    rw [List.append_assoc, fromByte?_append]
  rw [tokenAt, if_neg hinside, hfrom]
  simp [Cursor.advance?, h, toToken]

end SqlText
