import SqlText.Identifier.Basic
import SqlText.Literal.Basic
import SqlText.Proofs.Token.Truncation

/-!
# How written pieces are read

The library writes words, names, literals, spaces and punctuation. Each of them is read as one
lexeme, whatever it holds, as long as the next character does not continue it. The pieces of a
statement are always followed by a delimiter (`Delimited`), so the lexemes of a statement are those
of its pieces.

## Main statements

* `closing_units`: a quoted run that is made of whole units closes at its end.
* `lexemes_name`, `lexemes_literal`: a written name and a written literal are one lexeme each.
* `lexemes_blanks`, `lexemes_punctuation`, `lexemes_equals`: so are spaces and punctuation.
-/

namespace SqlText

open Text

namespace Rule

/-! ## Quoted runs -/

/--
What a quoted run is made of: a character that stands for itself, a doubled quote and, with
escapes, a backslash with the character after it.
-/
inductive IsUnit (q : Char) (escapes : Bool) : Text → Prop
  | plain {c : Char} : c ≠ q → (escapes = true → c ≠ '\\') → IsUnit q escapes [c]
  | pair : IsUnit q escapes [q, q]
  | escaped (c : Char) : escapes = true → IsUnit q escapes ['\\', c]

/-- **A run of whole units closes at the quote behind them**, if that quote is not doubled. -/
theorem closing_units {q : Char} (hq : q ≠ '\\') {escapes : Bool} {us : List Text}
    (hus : ∀ u ∈ us, IsUnit q escapes u) {rest : Text} (hrest : rest.head? ≠ some q) :
    closing q escapes (us.flatten ++ q :: rest) = some (us.flatten.length + 1) := by
  induction us with
  | nil =>
    cases rest with
    | nil => simp [closing]
    | cons d rest =>
      have hd : d ≠ q := by simpa using hrest
      simp [closing, hd]
  | cons u us ih =>
    have hread := ih fun v hv => hus v (List.mem_cons_of_mem _ hv)
    rw [List.flatten_cons, List.append_assoc]
    cases hus u List.mem_cons_self with
    | @plain c hc hb =>
      -- the search looks at two characters; behind a plain one the next always exists
      obtain ⟨d, t, ht⟩ : ∃ d t, us.flatten ++ q :: rest = d :: t :=
        List.exists_cons_of_ne_nil (by simp)
      rw [ht] at hread
      have he : ¬(escapes && c == '\\') = true := by simpa using hb
      rw [List.singleton_append, ht, closing, if_neg hc, if_neg he, hread]
      simp [Nat.add_comm]
    | pair =>
      rw [List.cons_append, List.singleton_append, closing, if_pos rfl, if_pos rfl, hread]
      simp [Nat.add_comm, Nat.add_left_comm]
    | escaped c he =>
      rw [List.cons_append, List.singleton_append, closing, if_neg hq.symm, if_pos (by simp [he]),
        hread]
      simp [Nat.add_comm, Nat.add_left_comm]

/-- A doubled text is made of whole units. -/
theorem exists_units_double (q : Char) (t : Text) :
    ∃ us : List Text, double q t = us.flatten ∧ ∀ u ∈ us, IsUnit q false u := by
  refine ⟨t.map fun c => if c = q then [q, q] else [c], by rw [double, List.flatMap_def], ?_⟩
  intro u hu
  obtain ⟨c, -, rfl⟩ := List.mem_map.1 hu
  split
  · exact .pair
  · next hc => exact .plain hc nofun

/-- A written string is made of whole units; without escapes it must hold no backslash. -/
theorem exists_units_quoteChar (escapes : Bool) {t : Text} (ht : escapes = true ∨ '\\' ∉ t) :
    ∃ us : List Text, t.flatMap Literal.quoteChar = us.flatten ∧
      ∀ u ∈ us, IsUnit '\'' escapes u := by
  refine ⟨t.map Literal.quoteChar, by rw [List.flatMap_def], ?_⟩
  intro u hu
  obtain ⟨c, hc, rfl⟩ := List.mem_map.1 hu
  unfold Literal.quoteChar
  split
  · exact .pair
  · next hq =>
    split
    · next hb =>
      subst hb
      exact .escaped '\\' (ht.resolve_right (not_not_intro hc))
    · next hb => exact .plain hq fun _ => hb

/-! ## Where pieces end -/

/-- Whether a character ends any piece before it. -/
def isDelimiter (c : Char) : Bool := !isNamePart c && c != '\'' && c != '"'

/-- Whether a text starts with no character that continues the piece before it. -/
def Delimited (t : Text) : Prop := ∀ c ∈ t.head?, isDelimiter c = true

theorem delimited_nil : Delimited [] := by
  intro c hc
  cases hc

theorem delimited_cons {c : Char} {t : Text} (h : isDelimiter c = true) : Delimited (c :: t) := by
  intro c' hc'
  cases hc'
  exact h

theorem Delimited.head?_ne {t : Text} (h : Delimited t) {c : Char} (hc : isDelimiter c = false) :
    t.head? ≠ some c := by
  intro he
  rw [h c he] at hc
  cases hc

/-- A run that fills a piece ends with it. -/
theorem runLength_append_of_all {p : Char → Bool} {s rest : Text} (hs : ∀ c ∈ s, p c = true)
    (hrest : ∀ c ∈ rest.head?, p c = false) : runLength p (s ++ rest) = s.length := by
  have hrun : rest.takeWhile p = [] := by
    cases rest with
    | nil => rfl
    | cons c rest => simp [hrest c rfl]
  rw [runLength, List.takeWhile_append_of_pos hs, hrun, List.append_nil]

/-! ## The rules on written pieces -/

theorem quoted_eq_none {q : Char} {escapes : Bool} {t : Text} (h : t.head? ≠ some q) :
    quoted q escapes t = none := by
  cases t with
  | nil => rfl
  | cons c t =>
    have hc : c ≠ q := by simpa using h
    rw [quoted, if_neg hc]

theorem quoted_units {q : Char} (hq : q ≠ '\\') {escapes : Bool} {us : List Text}
    (hus : ∀ u ∈ us, IsUnit q escapes u) {rest : Text} (hrest : rest.head? ≠ some q) :
    quoted q escapes (q :: us.flatten ++ q :: rest) = some (us.flatten.length + 2) := by
  rw [List.cons_append, quoted, if_pos rfl, closing_units hq hus hrest, Option.map_some]

/-- A text that starts with no quote, not even behind an `E`, starts with no string. -/
theorem string_eq_none {standard : Bool} {c : Char} {t : Text} (hc : c ≠ '\'')
    (ht : c = 'E' ∨ c = 'e' → t.head? ≠ some '\'') : string standard (c :: t) = none := by
  rw [string]
  split
  · next he => rw [quoted_eq_none (ht he), Option.map_none]
  · exact quoted_eq_none (by simpa using hc)

/-- **A written string is a string by either rule of quoting**, unless a quote follows it. -/
theorem string_quoteText (standard : Bool) (t : Text) {rest : Text}
    (hrest : rest.head? ≠ some '\'') :
    string standard (Literal.quoteText t ++ rest) = some (Literal.quoteText t).length := by
  unfold Literal.quoteText
  by_cases hb : t.contains '\\' = true
  · obtain ⟨us, hus, hunits⟩ := exists_units_quoteChar true (t := t) (Or.inl rfl)
    have hquoted := quoted_units (by decide) hunits hrest
    rw [if_pos hb, hus]
    simp only [List.cons_append, List.nil_append, List.append_assoc] at hquoted ⊢
    rw [string, if_pos (Or.inl rfl), hquoted]
    simp [Nat.add_assoc]
  · have ht : (!standard) = true ∨ '\\' ∉ t := Or.inr (by simpa using hb)
    obtain ⟨us, hus, hunits⟩ := exists_units_quoteChar (!standard) ht
    have hquoted := quoted_units (by decide) hunits hrest
    rw [if_neg hb, hus]
    simp only [List.cons_append, List.nil_append, List.append_assoc] at hquoted ⊢
    rw [string, if_neg (by decide), hquoted]
    simp

/-- Whether a text is a bare word. -/
def isWord : Text → Bool
  | [] => false
  | c :: t => isWordStart c && t.all isNamePart

theorem name_word {w rest : Text} (hw : isWord w = true) (hrest : Delimited rest) :
    name (w ++ rest) = some w.length := by
  cases w with
  | nil => cases hw
  | cons c w =>
    rw [isWord, Bool.and_eq_true, List.all_eq_true] at hw
    have hrun : runLength isNamePart (w ++ rest) = w.length := by
      refine runLength_append_of_all hw.2 fun d hd => ?_
      have := hrest d hd
      simp only [isDelimiter, Bool.and_eq_true, Bool.not_eq_true'] at this
      exact this.1.1
    rw [List.cons_append, name, if_pos hw.1, hrun, List.length_cons, Nat.add_comm]

/-- A bare word is no string: what follows it is a delimiter. -/
theorem string_word {standard : Bool} {w rest : Text} (hw : isWord w = true)
    (hrest : Delimited rest) : string standard (w ++ rest) = none := by
  cases w with
  | nil => cases hw
  | cons c w =>
    rw [isWord, Bool.and_eq_true, List.all_eq_true] at hw
    refine string_eq_none (fun hc => ?_) (fun _ => ?_)
    · rw [hc] at hw
      exact absurd hw.1 (by decide)
    · cases w with
      | nil => exact hrest.head?_ne (by decide)
      | cons d w =>
        intro hd
        have hd : d = '\'' := by simpa using hd
        have := hw.2 d List.mem_cons_self
        rw [hd] at this
        exact absurd this (by decide)

theorem name_quoted (n : Text) {rest : Text} (hrest : rest.head? ≠ some '"') :
    name ('"' :: double '"' n ++ '"' :: rest) = some ((double '"' n).length + 2) := by
  obtain ⟨us, hus, hunits⟩ := exists_units_double '"' n
  rw [hus, List.cons_append, name, if_neg (by decide)]
  exact quoted_units (by decide) hunits hrest

/-! ## Letters and digits by their codes -/

theorem upper_iff {c : Char} : c.isUpper = true ↔ 65 ≤ c.toNat ∧ c.toNat ≤ 90 := by
  show decide (c.val ≥ 'A'.val ∧ c.val ≤ 'Z'.val) = true ↔ _
  rw [decide_eq_true_iff, ge_iff_le, UInt32.le_iff_toNat_le, UInt32.le_iff_toNat_le]
  rfl

theorem lower_iff {c : Char} : c.isLower = true ↔ 97 ≤ c.toNat ∧ c.toNat ≤ 122 := by
  show (decide (c.val ≥ 'a'.val) && decide (c.val ≤ 'z'.val)) = true ↔ _
  rw [Bool.and_eq_true, decide_eq_true_iff, decide_eq_true_iff, ge_iff_le,
    UInt32.le_iff_toNat_le, UInt32.le_iff_toNat_le]
  rfl

theorem digit_iff {c : Char} : c.isDigit = true ↔ 48 ≤ c.toNat ∧ c.toNat ≤ 57 := by
  show (decide (c.val ≥ '0'.val) && decide (c.val ≤ '9'.val)) = true ↔ _
  rw [Bool.and_eq_true, decide_eq_true_iff, decide_eq_true_iff, ge_iff_le,
    UInt32.le_iff_toNat_le, UInt32.le_iff_toNat_le]
  rfl

theorem alpha_iff {c : Char} : c.isAlpha = true ↔ c.isUpper = true ∨ c.isLower = true := by
  show (c.isUpper || c.isLower) = true ↔ _
  rw [Bool.or_eq_true]

/-! ## Blanks and symbols -/

/-- Whether a character starts no word, string, number or parameter. -/
def isInert (c : Char) : Bool :=
  !isWordStart c && !c.isDigit && !(['\'', '"', '$', '%', '{'].contains c)

theorem isInert_of_isBlank {c : Char} (h : isBlank c = true) : isInert c = true := by
  -- blanks of ASCII lie below `!`, and the others lie above `~`
  have hout : c.toNat < 33 ∨ 126 < c.toNat := by
    simp only [isBlank, inRanges, blankRanges, List.any_cons, List.any_nil, Bool.or_false,
      Bool.or_eq_true, Bool.and_eq_true, decide_eq_true_eq] at h
    omega
  have hne : ∀ x : Char, 33 ≤ x.toNat ∧ x.toNat ≤ 126 → c ≠ x := by
    rintro x hx rfl
    omega
  have halpha : c.isAlpha = false := by
    rw [Bool.eq_false_iff]
    intro ha
    rw [alpha_iff, upper_iff, lower_iff] at ha
    omega
  have hdigit : c.isDigit = false := by
    rw [Bool.eq_false_iff]
    intro hd
    rw [digit_iff] at hd
    omega
  simp [isInert, isWordStart, halpha, hdigit, hne '_' (by decide), hne '\'' (by decide),
    hne '"' (by decide), hne '$' (by decide), hne '%' (by decide), hne '{' (by decide)]

theorem blankRun_append {g : Text} (hg : ∀ c ∈ g, isBlank c = true) (rest : Text) :
    blankRun (g ++ rest) = g.length + blankRun rest := by
  induction g with
  | nil => simp
  | cons c g ih =>
    have hunit : blankUnit (c :: (g ++ rest)) = some 1 := by
      rw [blankUnit, if_pos (hg c List.mem_cons_self)]
    rw [List.cons_append, blankRun_of_blankUnit hunit, List.drop_one, List.tail_cons,
      ih fun x hx => hg x (List.mem_cons_of_mem _ hx), List.length_cons]
    omega

/-- Whether a character starts no blank. -/
def startsNoBlank (c : Char) : Bool := !isBlank c && c != '-' && c != '/'

theorem blankUnit_eq_none {t : Text} (h : ∀ c ∈ t.head?, startsNoBlank c = true) :
    blankUnit t = none := by
  cases t with
  | nil => rfl
  | cons c t =>
    have hc := h c rfl
    simp only [startsNoBlank, Bool.and_eq_true, Bool.not_eq_true', bne_iff_ne] at hc
    rw [blankUnit, if_neg (by simp [hc.1.1])]
    cases hm : comment (c :: t) with
    | none => rfl
    | some n =>
      rcases comment_eq_some_iff.1 hm with ⟨u, he, -⟩ | ⟨u, m, he, -⟩
      · exact absurd (List.cons.inj he).1 hc.1.2
      · exact absurd (List.cons.inj he).1 hc.2

theorem isPunctuation_cases {c : Char} (h : isPunctuation c = true) :
    isInert c = true ∧ startsNoBlank c = true ∧ isOperator c = false := by
  have hmem : c ∈ ",()[].:;".toList := by simpa [isPunctuation] using h
  have hall : ",()[].:;".toList.all
      (fun x => isInert x && (startsNoBlank x && !isOperator x)) = true := by decide
  simpa using List.all_eq_true.1 hall c hmem

end Rule

open Rule

/-! ## First lexemes -/

theorem scan?_of_string {d : Dialect} {t : Text} {n : Nat}
    (h : Rule.string d.standardQuoting t = some n) : scan? d t = some (.string, n) := by
  simp [scan?, rules, tagged, h]

theorem scan?_of_identifier {d : Dialect} {t : Text} {k : Kind} {n : Nat}
    (hs : Rule.string d.standardQuoting t = none) (h : identifier d.fullyQualified t = some (k, n)) :
    scan? d t = some (k, n) := by
  simp [scan?, rules, tagged, hs, h]

/-- A text that starts with an inert character starts with a blank or a symbol. -/
theorem scan?_of_isInert (d : Dialect) {c : Char} (hc : isInert c = true) (t : Text) :
    scan? d (c :: t)
      = [tagged .blank blank, tagged .symbol symbol, tagged .error anyOne].findSome?
          (· (c :: t)) := by
  simp only [isInert, Bool.and_eq_true, Bool.not_eq_true', List.contains_eq_mem, List.mem_cons,
    List.not_mem_nil, or_false, decide_eq_false_iff_not, not_or] at hc
  obtain ⟨⟨hword, hdigit⟩, hquote, hdouble, hdollar, hpercent, hbrace⟩ := hc
  have hstring : Rule.string d.standardQuoting (c :: t) = none := by
    refine string_eq_none hquote fun he => ?_
    rcases he with rfl | rfl <;> exact absurd hword (by decide)
  have hidentifier : identifier d.fullyQualified (c :: t) = none := by
    rw [identifier, Option.map_eq_none_iff, name, hword]
    exact quoted_eq_none (t := c :: t) (by simpa using hdouble)
  have htag : dollarQuoted (c :: t) = none := by
    simp [dollarQuoted, dollarTag, hdollar]
  have hnamed : namedParam (c :: t) = none := by
    cases h : namedParam (c :: t) with
    | none => rfl
    | some n =>
      obtain ⟨_, _, _, he, -⟩ := namedParam_eq_some_iff.1 h
      exact absurd (List.cons.inj he).1 hpercent
  simp [scan?, rules, List.findSome?_cons, hstring, hidentifier, tagged, htag, number, hdigit,
    numberedParam, hdollar, hnamed, braceParam, hbrace]

/-! ## Lexemes -/

section

variable {d : Dialect} (hd : d.fullyQualified = false) {rest : Text}

include hd

/-- A bare word is one lexeme. -/
theorem lexemes_word {w : Text} (hw : isWord w = true) (hrest : Delimited rest) :
    lexemes d (w ++ rest) = (.identifier, w) :: lexemes d rest := by
  refine lexemes_of_scan? (scan?_of_identifier (string_word hw hrest) ?_)
  cases w with
  | nil => cases hw
  | cons c w =>
    have hc : c ≠ '"' := by
      rintro rfl
      rw [isWord, Bool.and_eq_true] at hw
      exact absurd hw.1 (by decide)
    rw [identifier, name_word hw hrest]
    simp [hd, hc]

/-- A name in quotes is one lexeme. -/
theorem lexemes_quotedName (n : Text) (hrest : Delimited rest) :
    lexemes d (('"' :: double '"' n ++ ['"']) ++ rest)
      = (.quotedIdentifier, '"' :: double '"' n ++ ['"']) :: lexemes d rest := by
  have hname := name_quoted n (hrest.head?_ne (c := '"') (by decide))
  refine lexemes_of_scan? (scan?_of_identifier (string_eq_none (by decide) (by simp)) ?_)
  rw [List.append_assoc, List.singleton_append, identifier, hname]
  simp [hd]

/-- What kind of lexeme a written name is. -/
def nameKind (n : Text) : Kind := if Identifier.isBare n then .identifier else .quotedIdentifier

omit hd in
theorem isWord_of_isBare {n : Text} (h : Identifier.isBare n = true) : isWord n = true := by
  cases n with
  | nil => cases h
  | cons c n =>
    simp only [Identifier.isBare, Bool.and_eq_true, List.all_eq_true] at h
    have hstart : ∀ c, Identifier.isBareStart c = true → isWordStart c = true := by
      intro c hc
      simp only [Identifier.isBareStart, Bool.or_eq_true] at hc
      rcases hc with hc | hc
      · simp [isWordStart, hc]
      · simp [isWordStart, alpha_iff.2 (Or.inr hc)]
    have hpart : ∀ c, Identifier.isBarePart c = true → isNamePart c = true := by
      intro c hc
      simp only [Identifier.isBarePart, Bool.or_eq_true] at hc
      rcases hc with (hc | hc) | hc
      · simp [isNamePart, isWordPart, hc]
      · simp [isNamePart, isWordPart, Char.isAlphanum, alpha_iff.2 (Or.inr hc)]
      · simp [isNamePart, isWordPart, Char.isAlphanum, hc]
    rw [isWord, hstart c h.1.1, Bool.true_and, List.all_eq_true]
    exact fun x hx => hpart x (h.1.2 x hx)

/-- **A written name is one lexeme**, whatever it holds. -/
theorem lexemes_name (n : Text) (hrest : Delimited rest) :
    lexemes d (Identifier.quote n ++ rest)
      = (nameKind n, Identifier.quote n) :: lexemes d rest := by
  unfold Identifier.quote nameKind
  split
  · next h => exact lexemes_word hd (isWord_of_isBare h) hrest
  · exact lexemes_quotedName hd n hrest

/-- What kind of lexeme a written literal is. -/
def literalKind : Option Text → Kind
  | none => .identifier
  | some _ => .string

/-- **A written literal is one lexeme**, whatever it holds and whichever rule of quoting is in force. -/
theorem lexemes_literal (v : Option Text) (hrest : Delimited rest) :
    lexemes d (Literal.quote v ++ rest) = (literalKind v, Literal.quote v) :: lexemes d rest := by
  cases v with
  | none => exact lexemes_word hd (by decide) hrest
  | some t =>
    exact lexemes_of_scan? (scan?_of_string
      (string_quoteText d.standardQuoting t (hrest.head?_ne (by decide))))

end

/-- White space is one lexeme up to where no blank starts. -/
theorem lexemes_blanks (d : Dialect) {g rest : Text} (hne : g ≠ [])
    (hg : ∀ c ∈ g, isBlank c = true) (hrest : ∀ c ∈ rest.head?, startsNoBlank c = true) :
    lexemes d (g ++ rest) = (.blank, g) :: lexemes d rest := by
  refine lexemes_of_scan? ?_
  have hrun : blankRun (g ++ rest) = g.length := by
    rw [blankRun_append hg, blankRun_eq_zero (blankUnit_eq_none hrest), Nat.add_zero]
  have hblank : blank (g ++ rest) = some g.length :=
    blank_eq_some_iff.2 ⟨List.length_pos_iff.2 hne, hrun.symm⟩
  cases g with
  | nil => exact absurd rfl hne
  | cons c g =>
    rw [List.cons_append] at hblank ⊢
    rw [scan?_of_isInert d (isInert_of_isBlank (hg c List.mem_cons_self))]
    simp [tagged, hblank]

/-- A punctuation character is one lexeme, whatever follows. -/
theorem lexemes_punctuation (d : Dialect) {c : Char} (hc : isPunctuation c = true) (rest : Text) :
    lexemes d (c :: rest) = (.symbol, [c]) :: lexemes d rest := by
  obtain ⟨hinert, hnoBlank, hoperator⟩ := isPunctuation_cases hc
  have hblank : blank (c :: rest) = none := by
    rw [blank, blankRun_eq_zero (blankUnit_eq_none fun x hx => by cases hx; exact hnoBlank)]
    rfl
  refine lexemes_of_scan? (s := [c]) ?_
  rw [List.singleton_append, scan?_of_isInert d hinert]
  simp [tagged, hblank, symbol, hoperator, hc]

/-- An equals sign is one lexeme, unless another operator follows. -/
theorem lexemes_equals (d : Dialect) {rest : Text} (hrest : ∀ c ∈ rest.head?, isOperator c = false) :
    lexemes d ('=' :: rest) = (.symbol, ['=']) :: lexemes d rest := by
  have hblank : blank ('=' :: rest) = none := by
    rw [blank, blankRun_eq_zero (blankUnit_eq_none fun x hx => by cases hx; decide)]
    rfl
  have hrun : runLength isOperator rest = 0 := by
    have := runLength_append_of_all (p := isOperator) (s := []) (by simp) hrest
    simpa using this
  refine lexemes_of_scan? (s := ['=']) ?_
  rw [List.singleton_append, scan?_of_isInert d (by decide)]
  simp [tagged, hblank, symbol, hrun, show isOperator '=' = true by decide]

end SqlText
