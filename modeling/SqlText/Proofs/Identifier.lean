import SqlText.Proofs.Quoting

/-!
# Names and qualified names read back

A written name is one token and reads back. Two written names with a dot between them are one token
where joined names are, and they read back as the two names.

The reader of qualified names finds the dot between them by counting quotes: every double quote
turns from outside to inside or back. A name in quotes has its own quotes doubled, so the second
quote of a pair turns back what the first one turned, and all that stands between two pairs is seen
as inside. A dot of the name is never taken for the one that divides.

## Main statements

* `Rule.name_quote`: a written name is a name for the rules of tokens.
* `Identifier.splitAtDot_quote`: the first dot outside quotes is the one behind a written name.
* `Identifier.unquoteQualified_quote`: two written names read back.
* `identifiers_read_back`: names and qualified names are one token and read back.
-/

namespace SqlText

open Text Lexeme

namespace Rule

/-! ## Written names for the rules of tokens -/

/-- **A written name is a name**, whatever it holds. -/
theorem name_quote (n : Text) {rest : Text} (hrest : Delimited rest) :
    name (Identifier.quote n ++ rest) = some (Identifier.quote n).length := by
  unfold Identifier.quote
  split
  · next h => exact name_word (isWord_of_isBare h) hrest
  · have hread := name_quoted n (hrest.head?_ne (c := '"') (by decide))
    rw [List.append_assoc, List.singleton_append, hread]
    simp

/-- A written name is no string. -/
theorem string_quote (standard : Bool) (n : Text) {rest : Text} (hrest : Delimited rest) :
    string standard (Identifier.quote n ++ rest) = none := by
  unfold Identifier.quote
  split
  · next h => exact string_word (isWord_of_isBare h) hrest
  · exact string_eq_none (by decide) (by simp)

/-- A dot and a written name join the name before them, and nothing else. -/
theorem joined_quote (n : Text) :
    joined ('.' :: Identifier.quote n) = 1 + (Identifier.quote n).length := by
  have hname := name_quote n delimited_nil
  rw [List.append_nil] at hname
  rw [joined, if_pos rfl, hname]
  simp [joined]

/-- Two written names with a dot between them are a chain. -/
theorem identifier_quote_dot_quote (a b : Text) :
    identifier true (Identifier.quote a ++ '.' :: Identifier.quote b)
      = some (.qualifiedIdentifier, (Identifier.quote a ++ '.' :: Identifier.quote b).length) := by
  have hmore : 0 < (Identifier.quote b).length + 1 := Nat.succ_pos _
  rw [identifier, name_quote a (delimited_cons (by decide)), Option.map_some]
  simp only [List.drop_left, joined_quote, Nat.add_comm 1, if_true, if_pos hmore,
    List.length_append, List.length_cons]

end Rule

open Rule

/-- A text with one lexeme has one token, unless it is left out. -/
theorem tokenize_of_lexemes {o : Options} {t : Text} {k : Kind}
    (h : lexemes o.dialect t = [(k, t)]) (hk : k ≠ .blank) :
    tokenize o t = [toToken o 0 0 (k, t)] := by
  have hkept : isKept o (k, t) = true := by simp [isKept, hk]
  rw [tokenize_eq_place, h, place, if_pos hkept]
  rfl

namespace Identifier

/-! ## One name -/

theorem nameKind_cases (n : Text) : nameKind n = .identifier ∨ nameKind n = .quotedIdentifier := by
  unfold nameKind
  split
  · exact Or.inl rfl
  · exact Or.inr rfl

/-- **A written name is one token**, where names are apart. -/
theorem tokenize_quote {o : Options} (ho : o.dialect.fullyQualified = false) (n : Text) :
    tokenize o (quote n) = [toToken o 0 0 (nameKind n, quote n)] := by
  have hlexemes := lexemes_name ho n delimited_nil
  rw [List.append_nil, lexemes_nil] at hlexemes
  refine tokenize_of_lexemes hlexemes ?_
  rcases nameKind_cases n with hk | hk
  · rw [hk]
    decide
  · rw [hk]
    decide

/-! ## Qualified names -/

/-- **A chain of two written names is one token**, where joined names are. -/
theorem tokenize_quote_dot_quote {o : Options} (ho : o.dialect.fullyQualified = true)
    (a b : Text) :
    tokenize o (quote a ++ '.' :: quote b)
      = [toToken o 0 0 (.qualifiedIdentifier, quote a ++ '.' :: quote b)] := by
  refine tokenize_of_lexemes ?_ (by decide)
  have hstring := string_quote o.dialect.standardQuoting a
    (delimited_cons (c := '.') (t := quote b) (by decide))
  have hchain := identifier_quote_dot_quote a b
  rw [← ho] at hchain
  have hscan := scan?_of_identifier hstring hchain
  rw [lexemes_eq_cons hscan, List.take_length, List.drop_length, lexemes_nil]

/-- A quote turns from outside to inside, or back. -/
theorem splitAtDot_quoteMark (inside : Bool) (t : Text) :
    splitAtDot inside ('"' :: t)
      = (splitAtDot (!inside) t).map fun r => ('"' :: r.1, r.2) := by
  rw [splitAtDot, if_neg (by simp)]
  rfl

/-- Any other character is passed, a dot only inside. -/
theorem splitAtDot_pass {inside : Bool} {c : Char} (hquote : c ≠ '"')
    (hdot : c = '.' → inside = true) (t : Text) :
    splitAtDot inside (c :: t) = (splitAtDot inside t).map fun r => (c :: r.1, r.2) := by
  have hdivides : ¬(c = '.' ∧ inside = false) := by
    rintro ⟨hc, hout⟩
    rw [hdot hc] at hout
    cases hout
  rw [splitAtDot, if_neg hdivides, if_neg hquote]

/-- The first dot divides where there are no quotes. -/
theorem splitAtDot_word {w : Text} (hdot : '.' ∉ w) (hquote : '"' ∉ w) (rest : Text) :
    splitAtDot false (w ++ '.' :: rest) = some (w, rest) := by
  induction w with
  | nil => rfl
  | cons c w ih =>
    rw [List.mem_cons, not_or] at hdot hquote
    rw [List.cons_append, splitAtDot_pass (Ne.symm hquote.1) (fun h => absurd h.symm hdot.1),
      ih hdot.2 hquote.2]
    rfl

/-- **From inside quotes the search goes on behind the closing quote**: pairs turn out and back. -/
theorem splitAtDot_double (n rest : Text) :
    splitAtDot true (double '"' n ++ '"' :: rest)
      = (splitAtDot false rest).map fun r => (double '"' n ++ '"' :: r.1, r.2) := by
  induction n with
  | nil => exact splitAtDot_quoteMark true rest
  | cons c n ih =>
    rw [double_cons, List.append_assoc]
    split
    · rw [List.cons_append, List.singleton_append, splitAtDot_quoteMark, splitAtDot_quoteMark,
        Bool.not_not, ih, Option.map_map, Option.map_map]
      rfl
    · next hc =>
      rw [List.singleton_append, splitAtDot_pass hc (fun _ => rfl), ih, Option.map_map]
      rfl

/-- **The first dot outside quotes is the one behind a written name.** -/
theorem splitAtDot_quote (n rest : Text) :
    splitAtDot false (quote n ++ '.' :: rest) = some (quote n, rest) := by
  unfold quote
  split
  · next h =>
    have hpart := isBarePart_of_isBare h
    exact splitAtDot_word (fun hd => absurd (hpart _ hd) (by decide))
      (fun hq => absurd (hpart _ hq) (by decide)) rest
  · rw [List.cons_append, List.cons_append, splitAtDot_quoteMark, List.append_assoc,
      List.singleton_append, Bool.not_false, splitAtDot_double]
    rfl

/-- **Two written names read back**, also with dots and quotes of their own. -/
theorem unquoteQualified_quote (a b : Text) :
    unquoteQualified (quote a ++ '.' :: quote b) = .ok (a ++ '.' :: b) := by
  rw [unquoteQualified, splitAtDot_quote]
  simp only [unquote_quote]
  rfl

/-- A table's name with its schema is its two parts with a dot between them. -/
theorem qualified_eq_parts (n : Text) : qualified n = (parts n).1 ++ '.' :: (parts n).2 := by
  have hpass : ∀ {u : Text}, '.' ∉ u → ∀ c ∈ u, (c != '.') = true := by
    intro u hu c hc
    rw [bne_iff_ne]
    rintro rfl
    exact hu hc
  by_cases hdot : '.' ∈ n
  · obtain ⟨schema, table, rfl, hschema⟩ := List.eq_append_cons_of_mem hdot
    have hdrop : (schema ++ '.' :: table).dropWhile (· != '.') = '.' :: table :=
      List.dropWhile_append_of_pos (hpass hschema)
    have htake : (schema ++ '.' :: table).takeWhile (· != '.') = schema := by
      rw [List.takeWhile_append_of_pos (hpass hschema)]
      exact List.append_nil schema
    rw [qualified, if_pos (by simp), parts, hdrop]
    simp only [htake]
  · have hdrop : n.dropWhile (· != '.') = [] := by
      rw [← List.append_nil n]
      exact List.dropWhile_append_of_pos (hpass hdot)
    rw [qualified, if_neg (by simpa using hdot), parts, hdrop]

end Identifier

open Identifier

/--
**Names read back, alone and with a schema.** Whatever a name holds, it reads back from its written
form, which is one bare or quoted name among the tokens. Two written names with a dot between them
read back as the two names with a dot, and they are one token where joined names are. So a table's
name reads back with its schema.
-/
theorem identifiers_read_back (n a b : Text) (o o' : Options)
    (ho : o.dialect.fullyQualified = false) (ho' : o'.dialect.fullyQualified = true) :
    (unquote (quote n) = .ok n ∧
      ∃ k, (k = .identifier ∨ k = .quotedIdentifier) ∧
        tokenize o (quote n) = [toToken o 0 0 (k, quote n)]) ∧
    (unquoteQualified (quote a ++ '.' :: quote b) = .ok (a ++ '.' :: b) ∧
      tokenize o' (quote a ++ '.' :: quote b)
        = [toToken o' 0 0 (.qualifiedIdentifier, quote a ++ '.' :: quote b)]) ∧
    unquoteQualified (quoteQualified n) = .ok (qualified n) := by
  refine ⟨⟨unquote_quote n, nameKind n, nameKind_cases n, tokenize_quote ho n⟩,
    ⟨unquoteQualified_quote a b, tokenize_quote_dot_quote ho' a b⟩, ?_⟩
  rw [qualified_eq_parts]
  exact unquoteQualified_quote (parts n).1 (parts n).2

/-- A reserved word, and a schema with a dot and a quote before a name that is empty. -/
theorem identifiers_read_back_dotted :
    let text : Text := "\"a.\"\"B\".\"\"".toList
    (unquote "\"select\"".toList = .ok "select".toList ∧
      ∃ k, (k = .identifier ∨ k = .quotedIdentifier) ∧
        tokenize {} "\"select\"".toList = [⟨k, "\"select\"".toList, 0, 8, none⟩]) ∧
    (unquoteQualified text = .ok "a.\"B.".toList ∧
      tokenize { dialect := { fullyQualified := true } } text
        = [⟨.qualifiedIdentifier, text, 0, 10, none⟩]) ∧
    unquoteQualified (quoteQualified "select".toList) = .ok "public.select".toList := by
  intro text
  have hname : quote "select".toList = "\"select\"".toList := by decide
  have htext : quote "a.\"B".toList ++ '.' :: quote [] = text := by decide
  have hread := identifiers_read_back "select".toList "a.\"B".toList [] {}
    { dialect := { fullyQualified := true } } rfl rfl
  rw [hname, htext] at hread
  exact hread

end SqlText
