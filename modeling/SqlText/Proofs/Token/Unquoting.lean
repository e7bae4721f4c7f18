import SqlText.Proofs.Quoting

/-!
# Scanned tokens can be unquoted

The rules that find names and strings and the readers that take their quotes off go through the text
separately, and each has its own way with doubled quotes and escapes. They agree: whatever a rule
finds, also by its step back to the last pair of a run that never closes, is made of whole units
between two quotes, and whole units are read without an error.

## Main statements

* `exists_units_of_closing`: what the search for a closing quote finds is made of whole units.
* `scan?_cases`: which rule found a lexeme.
* `Identifier.exists_unquote_of_scan?`, `Literal.exists_unquote_of_scan?`: scanned names and values
  are read.
* `exists_unquote_of_mem_tokenize`: so are the tokens of a source.
-/

namespace SqlText

open Text

namespace Rule

/-! ## Quoted runs -/

/-- **What the search for a closing quote finds is made of whole units** up to that quote. -/
theorem exists_units_of_closing {q : Char} {escapes : Bool} {t : Text} {n : Nat}
    (h : closing q escapes t = some n) :
    ∃ us : List Text, (∀ u ∈ us, IsUnit q escapes u) ∧ t.take n = us.flatten ++ [q] := by
  fun_induction closing q escapes t generalizing n with
  | case1 => cases h
  | case2 =>
    cases h
    exact ⟨[], by simp, rfl⟩
  | case3 => cases h
  | case4 t ih =>
    -- a pair: the run goes on behind it, or steps back and closes at its first quote
    cases hr : closing q escapes t with
    | none =>
      simp only [hr, Option.map_none, Option.getD_none, Option.some.injEq] at h
      subst h
      exact ⟨[], by simp, rfl⟩
    | some m =>
      simp only [hr, Option.map_some, Option.getD_some, Option.some.injEq] at h
      subst h
      obtain ⟨us, hus, ht⟩ := ih hr
      exact ⟨[q, q] :: us, List.forall_mem_cons.2 ⟨.pair, hus⟩, by simp [ht]⟩
  | case5 d t hd =>
    cases h
    exact ⟨[], by simp, rfl⟩
  | case6 c d t hc he ih =>
    obtain ⟨m, hm, rfl⟩ := Option.map_eq_some_iff.1 h
    obtain ⟨us, hus, ht⟩ := ih hm
    simp only [Bool.and_eq_true, beq_iff_eq] at he
    exact ⟨['\\', d] :: us, List.forall_mem_cons.2 ⟨.escaped d he.1, hus⟩, by simp [ht, he.2]⟩
  | case7 c d t hc he ih =>
    obtain ⟨m, hm, rfl⟩ := Option.map_eq_some_iff.1 h
    obtain ⟨us, hus, ht⟩ := ih hm
    have hplain : escapes = true → c ≠ '\\' := by simpa using he
    exact ⟨[c] :: us, List.forall_mem_cons.2 ⟨.plain hc hplain, hus⟩, by simp [ht]⟩

theorem exists_units_of_quoted {q : Char} {escapes : Bool} {t : Text} {n : Nat}
    (h : quoted q escapes t = some n) :
    ∃ us : List Text, (∀ u ∈ us, IsUnit q escapes u) ∧ t.take n = q :: us.flatten ++ [q] := by
  unfold quoted at h
  split at h
  · cases h
  · next c t =>
    split at h
    · next hc =>
      obtain ⟨m, hm, rfl⟩ := Option.map_eq_some_iff.1 h
      obtain ⟨us, hus, ht⟩ := exists_units_of_closing hm
      exact ⟨us, hus, by rw [List.take_succ_cons, ht, hc, List.cons_append]⟩
    · cases h

/-- A scanned string is whole units in quotes, with escapes where the dialect or an `E` says so. -/
theorem exists_units_of_string {standard : Bool} {t : Text} {n : Nat}
    (h : string standard t = some n) :
    ∃ us : List Text,
      (t.take n = '\'' :: us.flatten ++ ['\''] ∧ ∀ u ∈ us, IsUnit '\'' (!standard) u) ∨
        ∃ c, (c = 'E' ∨ c = 'e') ∧ t.take n = c :: '\'' :: us.flatten ++ ['\''] ∧
          ∀ u ∈ us, IsUnit '\'' true u := by
  unfold string at h
  split at h
  · cases h
  · next c t =>
    split at h
    · next hc =>
      obtain ⟨m, hm, rfl⟩ := Option.map_eq_some_iff.1 h
      obtain ⟨us, hus, ht⟩ := exists_units_of_quoted hm
      refine ⟨us, Or.inr ⟨c, hc, ?_, hus⟩⟩
      rw [List.take_succ_cons, ht]
      rfl
    · obtain ⟨us, hus, ht⟩ := exists_units_of_quoted h
      exact ⟨us, Or.inl ⟨ht, hus⟩⟩

/-- A run holds only characters of the run. -/
theorem mem_take_runLength {p : Char → Bool} {t : Text} {c : Char}
    (h : c ∈ t.take (runLength p t)) : p c = true := by
  have hrun : t.takeWhile p = t.take (runLength p t) :=
    List.prefix_iff_eq_take.1 (List.takeWhile_prefix p)
  rw [← hrun] at h
  exact List.all_eq_true.1 List.all_takeWhile c h

/-- A scanned name is a bare word, or whole units in double quotes. -/
theorem word_or_units_of_name {t : Text} {n : Nat} (h : name t = some n) :
    isWord (t.take n) = true ∨
      ∃ us : List Text, (∀ u ∈ us, IsUnit '"' false u) ∧ t.take n = '"' :: us.flatten ++ ['"'] := by
  unfold name at h
  split at h
  · cases h
  · next c t =>
    split at h
    · next hc =>
      cases h
      refine Or.inl ?_
      rw [Nat.add_comm, List.take_succ_cons, isWord, hc, Bool.true_and, List.all_eq_true]
      exact fun x hx => mem_take_runLength hx
    · exact Or.inr (exists_units_of_quoted h)

/-- A number starts with a digit. -/
theorem exists_digit_of_number {t : Text} {n : Nat} (h : number t = some n) :
    ∃ c s, t.take n = c :: s ∧ c.isDigit = true := by
  unfold number at h
  split at h
  · cases h
  · next c t =>
    split at h
    · next hc =>
      cases h
      exact ⟨c, t.take (runLength isNumberPart t), by rw [Nat.add_comm, List.take_succ_cons], hc⟩
    · cases h

/-- What is found stands where it was found. -/
theorem prefix_drop_of_indexOf? {needle t : Text} {k : Nat} (h : indexOf? needle t = some k) :
    needle <+: t.drop k := by
  induction t generalizing k with
  | nil =>
    unfold indexOf? at h
    split at h
    · next hn =>
      rw [List.isEmpty_iff.1 hn]
      exact List.nil_prefix
    · cases h
  | cons c t ih =>
    rw [indexOf?] at h
    split at h
    · next hp =>
      cases h
      exact List.isPrefixOf_iff_prefix.1 hp
    · obtain ⟨m, hm, rfl⟩ := Option.map_eq_some_iff.1 h
      exact ih hm

/-- A scanned dollar quote is a text between two equal tags. -/
theorem exists_tag_of_dollarQuoted {t : Text} {n : Nat} (h : dollarQuoted t = some n) :
    ∃ tag body : Text, t.take n = tag ++ body ++ tag ∧ dollarTag (t.take n) = some tag.length := by
  obtain ⟨m, hm, hk⟩ := Option.bind_eq_some_iff.1 h
  obtain ⟨k, hi, rfl⟩ := Option.map_eq_some_iff.1 hk
  have hle := (dollarTag_bounds hm).2
  have hlen : (t.take m).length = m := by rw [List.length_take, Nat.min_eq_left hle]
  refine ⟨t.take m, (t.drop m).take k, ?_, ?_⟩
  · have hclose := List.prefix_iff_eq_take.1 (prefix_drop_of_indexOf? hi)
    rw [hlen, List.drop_drop] at hclose
    rw [List.take_add (i := m + k), List.take_add (i := m), ← hclose]
  · have hcut : t.take (m + k + m) ++ t.drop (m + k + m) = t := List.take_append_drop _ _
    have hbound := (dollarQuoted_bounds h).2
    rw [hlen]
    refine dollarTag_of_append (r := t.drop (m + k + m)) (by rw [hcut, hm]) ?_
    rw [List.length_take]
    omega

end Rule

open Rule

/-! ## Which rule found a token -/

/-- **The kind of a lexeme tells the rule that found it**, as far as names and literals go. -/
theorem scan?_cases {d : Dialect} {t : Text} {k : Kind} {n : Nat} (h : scan? d t = some (k, n)) :
    (k = .string ∧ Rule.string d.standardQuoting t = some n) ∨
      identifier d.fullyQualified t = some (k, n) ∨
      (k = .dollarString ∧ dollarQuoted t = some n) ∨
      (k = .number ∧ number t = some n) ∨
      (k.isIdentifier = false ∧ k.isLiteral = false) := by
  obtain ⟨rule, hmem, hrule⟩ := List.exists_of_findSome?_eq_some h
  have htagged : ∀ {k' : Kind} {found : Text → Option Nat}, tagged k' found t = some (k, n) →
      k = k' ∧ found t = some n := by
    intro k' found hfound
    obtain ⟨rfl, hn⟩ := tagged_eq_some.1 hfound
    exact ⟨rfl, hn⟩
  simp only [rules, List.mem_cons, List.not_mem_nil, or_false] at hmem
  rcases hmem with rfl | rfl | rfl | rfl | rfl | rfl | rfl | rfl | rfl | rfl
  · exact Or.inl (htagged hrule)
  · exact Or.inr (Or.inl hrule)
  · exact Or.inr (Or.inr (Or.inl (htagged hrule)))
  · exact Or.inr (Or.inr (Or.inr (Or.inl (htagged hrule))))
  all_goals
    rw [(htagged hrule).1]
    exact Or.inr (Or.inr (Or.inr (Or.inr ⟨rfl, rfl⟩)))

/-- Where names are apart, a name is bare or quoted, and its kind says which. -/
theorem name_of_identifier {t : Text} {k : Kind} {n : Nat} (h : identifier false t = some (k, n)) :
    name t = some n ∧
      ((k = .quotedIdentifier ∧ t.head? = some '"') ∨ (k = .identifier ∧ t.head? ≠ some '"')) := by
  obtain ⟨m, hm, he⟩ := Option.map_eq_some_iff.1 h
  simp only [Bool.false_eq_true, if_false, Nat.lt_irrefl, Nat.add_zero, Prod.mk.injEq] at he
  obtain ⟨hk, rfl⟩ := he
  refine ⟨hm, ?_⟩
  split at hk
  · next hq => exact Or.inl ⟨hk.symm, hq⟩
  · next hq => exact Or.inr ⟨hk.symm, hq⟩

/-! ## Names -/

namespace Identifier

/-- **Every scanned name is read.** -/
theorem exists_unquote_of_scan? {d : Dialect} (hd : d.fullyQualified = false) {t : Text} {k : Kind}
    {n : Nat} (h : scan? d t = some (k, n)) (hk : k.isIdentifier = true) :
    ∃ r, unquote (t.take n) = .ok r := by
  rcases scan?_cases h with ⟨rfl, -⟩ | hname | ⟨rfl, -⟩ | ⟨rfl, -⟩ | ⟨hno, -⟩
  · cases hk
  · rw [hd] at hname
    rcases word_or_units_of_name (name_of_identifier hname).1 with hw | ⟨us, hus, ht⟩
    · exact ⟨_, unquote_word hw⟩
    · rw [ht]
      exact ⟨_, unquote_units hus⟩
  · cases hk
  · cases hk
  · rw [hno] at hk
    cases hk

end Identifier

/-! ## Literals -/

namespace Literal

/-- A scanned string is read by the rule of quoting that it was scanned by. -/
theorem exists_unquote_of_string {standardQuoting : Bool} {t : Text} {n : Nat}
    (h : Rule.string standardQuoting t = some n) :
    ∃ v, unquote standardQuoting (t.take n) = .ok v := by
  obtain ⟨us, ⟨ht, hus⟩ | ⟨c, hc, ht, hus⟩⟩ := exists_units_of_string h
  · rw [ht]
    cases standardQuoting with
    | true => exact ⟨_, unquote_standard hus⟩
    | false => exact ⟨_, unquote_escaped hus⟩
  · rw [ht]
    exact ⟨_, unquote_extended standardQuoting hc hus⟩

/-- **What stands between two equal tags is read as it stands.** -/
theorem unquote_between_tags (standardQuoting : Bool) {tag inner : Text}
    (htag : dollarTag (tag ++ inner ++ tag) = some tag.length) :
    unquote standardQuoting (tag ++ inner ++ tag) = .ok (some inner) := by
  have hlen : (tag ++ inner ++ tag).length - 2 * tag.length = inner.length := by
    simp only [List.length_append]
    omega
  have hread : unquoteDollar (tag ++ inner ++ tag) = .ok inner := by
    have hsuffix : (tag.isSuffixOf (tag ++ inner ++ tag)) = true :=
      List.isSuffixOf_iff_suffix.2 (List.suffix_append _ _)
    have htake : (tag ++ inner ++ tag).take tag.length = tag := by
      rw [List.append_assoc, List.take_left]
    rw [unquoteDollar, htag]
    simp only [htake, hlen]
    rw [if_pos ⟨by simp only [List.length_append]; omega, hsuffix⟩, List.append_assoc,
      List.drop_left, List.take_left]
  -- the first character of a tag is a dollar sign
  cases hs : tag ++ inner ++ tag with
  | nil =>
    rw [hs] at htag
    cases htag
  | cons c s =>
    rw [hs] at htag hread
    obtain ⟨rfl, -⟩ := dollarTag_eq_some_iff.1 htag
    rw [unquote, hread]
    rfl

/-- A scanned dollar quote is read as what stands between its tags. -/
theorem exists_unquote_of_dollarQuoted (standardQuoting : Bool) {t : Text} {n : Nat}
    (h : dollarQuoted t = some n) : ∃ v, unquote standardQuoting (t.take n) = .ok v := by
  obtain ⟨tag, inner, ht, htag⟩ := exists_tag_of_dollarQuoted h
  rw [ht] at htag ⊢
  exact ⟨some inner, unquote_between_tags standardQuoting htag⟩

/-- A text that opens no string is read as it stands. -/
theorem exists_unquote_of_bare (standardQuoting : Bool) {c : Char} {s : Text} (hc : c ≠ '\'')
    (hdollar : c ≠ '$') (hs : c = 'E' ∨ c = 'e' → s.head? ≠ some '\'') :
    ∃ v, unquote standardQuoting (c :: s) = .ok v := by
  unfold unquote
  split
  · next h => exact absurd (List.cons.inj h).1 hc
  · next h =>
    obtain ⟨hE, hquote⟩ := List.cons.inj h
    exact absurd (congrArg List.head? hquote) (hs (Or.inl hE))
  · next h =>
    obtain ⟨he, hquote⟩ := List.cons.inj h
    exact absurd (congrArg List.head? hquote) (hs (Or.inr he))
  · next h => exact absurd (List.cons.inj h).1 hdollar
  · exact ⟨_, rfl⟩

theorem exists_unquote_of_word (standardQuoting : Bool) {w : Text} (hw : isWord w = true) :
    ∃ v, unquote standardQuoting w = .ok v := by
  cases w with
  | nil => cases hw
  | cons c w =>
    rw [isWord, Bool.and_eq_true, List.all_eq_true] at hw
    refine exists_unquote_of_bare standardQuoting ?_ ?_ fun _ hquote => ?_
    · rintro rfl
      exact absurd hw.1 (by decide)
    · rintro rfl
      exact absurd hw.1 (by decide)
    · exact absurd (hw.2 '\'' (List.mem_of_head? hquote)) (by decide)

theorem exists_unquote_of_digit (standardQuoting : Bool) {c : Char} {s : Text}
    (hc : c.isDigit = true) : ∃ v, unquote standardQuoting (c :: s) = .ok v := by
  refine exists_unquote_of_bare standardQuoting ?_ ?_ fun he => ?_
  · rintro rfl
    exact absurd hc (by decide)
  · rintro rfl
    exact absurd hc (by decide)
  · rcases he with rfl | rfl <;> exact absurd hc (by decide)

/-- **Every scanned value is read** by the rule of quoting that it was scanned by. -/
theorem exists_unquote_of_scan? {d : Dialect} (hd : d.fullyQualified = false) {t : Text} {k : Kind}
    {n : Nat} (h : scan? d t = some (k, n)) (hk : k.isLiteral = true ∨ k = .identifier) :
    ∃ v, unquote d.standardQuoting (t.take n) = .ok v := by
  rcases scan?_cases h with ⟨-, hstring⟩ | hname | ⟨-, hdollar⟩ | ⟨-, hnumber⟩ | ⟨hno, hno'⟩
  · exact exists_unquote_of_string hstring
  · rw [hd] at hname
    obtain ⟨hname, ⟨rfl, -⟩ | ⟨-, hhead⟩⟩ := name_of_identifier hname
    · rcases hk with hk | hk <;> cases hk
    · rcases word_or_units_of_name hname with hw | ⟨us, -, ht⟩
      · exact exists_unquote_of_word d.standardQuoting hw
      · -- a name that opens no double quote is no name in quotes
        have hfirst := congrArg List.head? ht
        rw [List.head?_take, if_neg (Nat.ne_of_gt (name_bounds hname).1)] at hfirst
        exact absurd hfirst hhead
  · exact exists_unquote_of_dollarQuoted _ hdollar
  · obtain ⟨c, s, hs, hc⟩ := exists_digit_of_number hnumber
    rw [hs]
    exact exists_unquote_of_digit _ hc
  · rcases hk with hk | rfl
    · rw [hno'] at hk
      cases hk
    · cases hno

end Literal

/-! ## Tokens of a source -/

section

variable {o : Options} (ho : o.dialect.fullyQualified = false) {source : Text} {t : Token}
  (ht : t ∈ tokenize o source)

include ho ht

/-- Where names are apart, no token joins them. -/
theorem isIdentifier_iff_of_mem_tokenize :
    t.kind.isIdentifier = true ↔ t.kind = .identifier ∨ t.kind = .quotedIdentifier := by
  constructor
  · intro hk
    obtain ⟨rest, hscan⟩ := scan?_of_mem_tokenize ht
    rcases scan?_cases hscan with ⟨hkind, -⟩ | hname | ⟨hkind, -⟩ | ⟨hkind, -⟩ | ⟨hno, -⟩
    · rw [hkind] at hk
      cases hk
    · rw [ho] at hname
      rcases (name_of_identifier hname).2 with ⟨hkind, -⟩ | ⟨hkind, -⟩
      · exact Or.inr hkind
      · exact Or.inl hkind
    · rw [hkind] at hk
      cases hk
    · rw [hkind] at hk
      cases hk
    · rw [hno] at hk
      cases hk
  · rintro (hk | hk) <;> rw [hk] <;> rfl

/-- **The names and the values among the tokens of a source are read**, each by its reader. -/
theorem exists_unquote_of_mem_tokenize :
    (t.kind.isIdentifier = true → ∃ name, Identifier.unquote t.text = .ok name) ∧
      (t.kind.isLiteral = true ∨ t.kind = .identifier →
        ∃ v, Literal.unquote o.dialect.standardQuoting t.text = .ok v) := by
  obtain ⟨rest, hscan⟩ := scan?_of_mem_tokenize ht
  constructor
  · intro hk
    have hname := Identifier.exists_unquote_of_scan? ho hscan hk
    rwa [List.take_left] at hname
  · intro hk
    have hvalue := Literal.exists_unquote_of_scan? ho hscan hk
    rwa [List.take_left] at hvalue

end

end SqlText
