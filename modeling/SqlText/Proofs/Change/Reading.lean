import Mathlib.Data.List.Nodup
import SqlText.Proofs.Change.RoundTrip
import SqlText.Proofs.Token.Unquoting

/-!
# What is read from a fragment, and what is refused

A fragment is read in three steps: its tokens have to be a sentence of the grammar, each name and
each value is unquoted, and the columns are added to a row. The second step never fails, since names
and values come from tokens. So a fragment is refused for its grammar or for a column that stands
twice, and for nothing else.

## Main statements

* `exists_reads_of_sentence`: the pairs of a sentence are unquoted to columns and values.
* `isGrammar_of_pairs`: the reader of the grammar fails only for the grammar.
* `unquote_scanned`: scanned tokens are unquoted, and reading has three errors.
* `read_split_iff_sentence`: what is accepted is the sentences with different names.
-/

namespace SqlText

/-- Whether an error says that the tokens do not fit the grammar. -/
inductive Error.IsGrammar : Error → Prop
  | unexpectedToken (expected : Expected) (found : Text) :
      IsGrammar (.unexpectedToken expected found)
  | unexpectedEnd (expected : Expected) : IsGrammar (.unexpectedEnd expected)

namespace Fragment

/-! ## Errors of the grammar -/

theorem isGrammar_of_token {expected : Expected} {fits : Token → Bool} {ts : List Token} {e : Error}
    (h : token expected fits ts = .error e) : e.IsGrammar := by
  unfold token at h
  split at h
  · cases h
    exact .unexpectedEnd expected
  · split at h
    · cases h
    · cases h
      exact .unexpectedToken expected _

theorem isGrammar_of_atEnd {ts : List Token} {e : Error} (h : atEnd ts = .error e) :
    e.IsGrammar := by
  cases ts with
  | nil => cases h
  | cons t ts =>
    cases h
    exact .unexpectedToken _ _

theorem isGrammar_of_columnList {ts : List Token} {e : Error} (h : columnList ts = .error e) :
    e.IsGrammar := by
  fun_induction columnList ts with
  | case1 => cases h; exact .unexpectedEnd _
  | case2 => cases h; exact .unexpectedEnd _
  | case3 => cases h; exact .unexpectedToken _ _
  | case4 => cases h
  | case5 c t ts hc ht hcomma ih => exact ih (map_eq_error_iff.1 h)
  | case6 => cases h; exact .unexpectedToken _ _
  | case7 => cases h; exact .unexpectedToken _ _

theorem isGrammar_of_valueList {n : Nat} {ts : List Token} {e : Error}
    (h : valueList n ts = .error e) : e.IsGrammar := by
  induction n generalizing ts with
  | zero => cases h
  | succ n ih =>
    rw [valueList] at h
    rcases bind_eq_error_iff.1 h with hvalue | ⟨v, -, h₁⟩
    · exact isGrammar_of_token hvalue
    -- a comma or a parenthesis follows, and what stands behind either is read in the same way
    have hbehind : ∀ {expected : Expected} {fits : Token → Bool},
        (token expected fits v.2 >>= fun m =>
          valueList n m.2 >>= fun r => pure (v.1.text :: r.1, r.2)) = .error e → e.IsGrammar := by
      intro expected fits h₂
      rcases bind_eq_error_iff.1 h₂ with hmark | ⟨m, -, h₃⟩
      · exact isGrammar_of_token hmark
      rcases bind_eq_error_iff.1 h₃ with hlist | ⟨vs, -, hresult⟩
      · exact ih hlist
      · cases hresult
    simp only at h₁
    split at h₁
    · exact hbehind h₁
    · exact hbehind h₁

theorem isGrammar_of_insertion {ts : List Token} {e : Error} (h : insertion ts = .error e) :
    e.IsGrammar := by
  rw [insertion] at h
  rcases bind_eq_error_iff.1 h with hopen | ⟨o, -, h₁⟩
  · exact isGrammar_of_token hopen
  rcases bind_eq_error_iff.1 h₁ with hcolumns | ⟨columns, -, h₂⟩
  · exact isGrammar_of_columnList hcolumns
  rcases bind_eq_error_iff.1 h₂ with hword | ⟨w, -, h₃⟩
  · exact isGrammar_of_token hword
  rcases bind_eq_error_iff.1 h₃ with hopen' | ⟨o', -, h₄⟩
  · exact isGrammar_of_token hopen'
  rcases bind_eq_error_iff.1 h₄ with hvalues | ⟨values, -, h₅⟩
  · exact isGrammar_of_valueList hvalues
  rcases bind_eq_error_iff.1 h₅ with hend | ⟨_, -, hresult⟩
  · exact isGrammar_of_atEnd hend
  · cases hresult

theorem isGrammar_of_pair {ts : List Token} {e : Error} (h : pair ts = .error e) : e.IsGrammar := by
  rw [pair] at h
  rcases bind_eq_error_iff.1 h with hcolumn | ⟨c, -, h₁⟩
  · exact isGrammar_of_token hcolumn
  rcases bind_eq_error_iff.1 h₁ with hequals | ⟨s, -, h₂⟩
  · exact isGrammar_of_token hequals
  rcases bind_eq_error_iff.1 h₂ with hvalue | ⟨v, -, hresult⟩
  · exact isGrammar_of_token hvalue
  · cases hresult

theorem isGrammar_of_assignments {ts : List Token} {e : Error} (h : assignments ts = .error e) :
    e.IsGrammar := by
  fun_induction assignments ts with
  | case1 ts e' hp => cases h; exact isGrammar_of_pair hp
  | case2 => cases h; exact .unexpectedEnd _
  | case3 => cases h
  | case4 ts p t rest hp hw hcomma ih => exact ih (map_eq_error_iff.1 h)
  | case5 => cases h; exact .unexpectedToken _ _

theorem isGrammar_of_predicate {ts : List Token} {e : Error} (h : predicate ts = .error e) :
    e.IsGrammar := by
  fun_induction predicate ts with
  | case1 ts e' hp => cases h; exact isGrammar_of_pair hp
  | case2 => cases h
  | case3 ts p t rest hp hand ih => exact ih (map_eq_error_iff.1 h)
  | case4 => cases h; exact .unexpectedToken _ _

/-- **The reader of the grammar fails only for the grammar.** -/
theorem isGrammar_of_pairs {op : Operation} {ts : List Token} {e : Error}
    (h : pairs op ts = .error e) : e.IsGrammar := by
  cases op with
  | insert =>
    rcases bind_eq_error_iff.1 h with hdata | ⟨data, -, hresult⟩
    · exact isGrammar_of_insertion hdata
    · cases hresult
  | update =>
    rcases bind_eq_error_iff.1 h with hdata | ⟨data, -, h₁⟩
    · exact isGrammar_of_assignments hdata
    · rcases bind_eq_error_iff.1 h₁ with hkeys | ⟨keys, -, hresult⟩
      · exact isGrammar_of_predicate hkeys
      · cases hresult
  | delete =>
    rcases bind_eq_error_iff.1 h with hkeys | ⟨keys, -, hresult⟩
    · exact isGrammar_of_predicate hkeys
    · cases hresult

/-! ## Pairs are unquoted -/

/-- What can be a value is a literal or a bare word. -/
theorem isValue_iff {t : Token} :
    isValue t = true ↔ t.kind.isLiteral = true ∨ t.kind = .identifier := by
  rw [isValue, Bool.or_eq_true, beq_iff_eq]

/-- **The pairs of a sentence are unquoted to columns and values.** -/
theorem exists_reads_of_sentence {op : Operation} {sql : Text} {ps : Pairs}
    (h : Sentence op (tokens sql) ps) :
    (∃ ds, List.Forall₂ Reads ps.data ds) ∧ ∃ ks, List.Forall₂ Reads ps.keys ks := by
  have hpair : ∀ p ∈ ps.data ++ ps.keys, ∃ e, Reads p e := by
    intro p hp
    obtain ⟨c, v, hcmem, hvmem, hc, hv, rfl⟩ := h.exists_tokens hp
    obtain ⟨name, hname⟩ := (exists_unquote_of_mem_tokenize rfl hcmem).1 hc
    obtain ⟨value, hvalue⟩ := (exists_unquote_of_mem_tokenize rfl hvmem).2 (isValue_iff.1 hv)
    exact ⟨(name, value), hname, hvalue⟩
  exact ⟨exists_forall₂ fun p hp => hpair p (List.mem_append_left _ hp),
    exists_forall₂ fun p hp => hpair p (List.mem_append_right _ hp)⟩

/-- Columns that were unquoted are refused only where one stands twice. -/
theorem exists_duplicate_of_toRow {ps : List Pair} {es : List (Text × Option Text)}
    (hread : List.Forall₂ Reads ps es) {e : Error} (h : toRow ps = .error e) :
    ∃ c, e = .duplicateColumn c := by
  rw [toRow_of_reads hread] at h
  obtain ⟨c, -, hc⟩ := Row.addAll_eq_error h
  exact ⟨c, hc⟩

/-- A sentence is refused only for a column that stands twice. -/
theorem exists_duplicate_of_read {op : Operation} {splitKeys : Bool} {sql : Text} {ps : Pairs}
    (hps : Sentence op (tokens sql) ps) {e : Error} (h : read op splitKeys sql = .error e) :
    ∃ c, e = .duplicateColumn c := by
  obtain ⟨⟨ds, hds⟩, ks, hks⟩ := exists_reads_of_sentence hps
  rcases bind_eq_error_iff.1 h with hpairs | ⟨ps', hpairs, h₁⟩
  · rw [pairs_eq_ok_iff.2 hps] at hpairs
    cases hpairs
  cases (pairs_eq_ok_iff.2 hps).symm.trans hpairs
  rcases bind_eq_error_iff.1 h₁ with hdata | ⟨data, -, h₂⟩
  · exact exists_duplicate_of_toRow hds hdata
  rcases bind_eq_error_iff.1 h₂ with hkeys | ⟨keys, -, h₃⟩
  · exact exists_duplicate_of_toRow hks hkeys
  cases splitKeys with
  | true => cases h₃
  | false =>
    rcases bind_eq_error_iff.1 h₃ with happend | ⟨m, -, hresult⟩
    · obtain ⟨c, -, hc⟩ := Row.addAll_eq_error happend
      exact ⟨c, hc⟩
    · cases hresult

/-- A fragment is refused for its grammar or for a column that stands twice. -/
theorem isGrammar_or_duplicate_of_read {op : Operation} {splitKeys : Bool} {sql : Text} {e : Error}
    (h : read op splitKeys sql = .error e) : e.IsGrammar ∨ ∃ c, e = .duplicateColumn c := by
  rcases bind_eq_error_iff.1 h with hpairs | ⟨ps, hps, -⟩
  · exact Or.inl (isGrammar_of_pairs hpairs)
  · exact Or.inr (exists_duplicate_of_read (pairs_eq_ok_iff.1 hps) h)

/--
**Scanned tokens are unquoted.** In a dialect that keeps names apart, every name among the tokens of
a source is read as a name, and every number, string and bare word as a value, by the rule of quoting
that it was scanned by. So a fragment is never refused for a malformed name or literal: a token does
not fit, the tokens end too early, or a column stands twice.
-/
theorem unquote_scanned (o : Options) (ho : o.dialect.fullyQualified = false) (source : Text) :
    (∀ t ∈ tokenize o source,
      (t.kind = .identifier ∨ t.kind = .quotedIdentifier →
        ∃ name, Identifier.unquote t.text = .ok name) ∧
      (t.kind = .number ∨ t.kind = .string ∨ t.kind = .dollarString ∨ t.kind = .identifier →
        ∃ v, Literal.unquote o.dialect.standardQuoting t.text = .ok v)) ∧
    ∀ (op : Operation) (splitKeys : Bool) (e : Error), read op splitKeys source = .error e →
      (∃ expected found, e = .unexpectedToken expected found) ∨
        (∃ expected, e = .unexpectedEnd expected) ∨ ∃ column, e = .duplicateColumn column := by
  refine ⟨fun t ht => ?_, fun op splitKeys e he => ?_⟩
  · obtain ⟨hname, hvalue⟩ := exists_unquote_of_mem_tokenize ho ht
    refine ⟨fun hk => hname ((isIdentifier_iff_of_mem_tokenize ho ht).2 hk), fun hk => hvalue ?_⟩
    rcases hk with hk | hk | hk | hk
    · exact Or.inl (by rw [hk]; rfl)
    · exact Or.inl (by rw [hk]; rfl)
    · exact Or.inl (by rw [hk]; rfl)
    · exact Or.inr hk
  · rcases isGrammar_or_duplicate_of_read he with hgrammar | hduplicate
    · cases hgrammar with
      | unexpectedToken expected found => exact Or.inl ⟨expected, found, rfl⟩
      | unexpectedEnd expected => exact Or.inr (Or.inl ⟨expected, rfl⟩)
    · exact Or.inr (Or.inr hduplicate)

/-- A name and a string that never close and were closed at their last pairs. -/
theorem unquote_scanned_unclosed :
    let source := "\"x\"\"y = 'a''b".toList
    (∃ t ∈ tokenize {} source, (t.kind = .quotedIdentifier ∧ t.text = "\"x\"".toList) ∧
      ∃ name, Identifier.unquote t.text = .ok name) ∧
    (∃ t ∈ tokenize {} source, (t.kind = .string ∧ t.text = "'a'".toList) ∧
      ∃ v, Literal.unquote false t.text = .ok v) ∧
    ∃ e, read .delete true source = .error e ∧
      ((∃ expected found, e = .unexpectedToken expected found) ∨
        (∃ expected, e = .unexpectedEnd expected) ∨ ∃ column, e = .duplicateColumn column) := by
  intro source
  obtain ⟨htokens, herrors⟩ := unquote_scanned {} rfl source
  have hname : ∃ t ∈ tokenize {} source,
      t.kind = .quotedIdentifier ∧ t.text = "\"x\"".toList := by decide +kernel
  have hstring : ∃ t ∈ tokenize {} source, t.kind = .string ∧ t.text = "'a'".toList := by
    decide +kernel
  have hread : read .delete true source = .error (.unexpectedToken .equals "\"".toList) := by
    decide +kernel
  obtain ⟨t, ht, hte⟩ := hname
  obtain ⟨u, hu, hue⟩ := hstring
  exact ⟨⟨t, ht, hte, (htokens t ht).1 (Or.inr hte.1)⟩,
    ⟨u, hu, hue, (htokens u hu).2 (Or.inr (Or.inl hue.1))⟩,
    _, hread, herrors .delete true _ hread⟩

/-! ## What is accepted -/

/-- Whether some pairs name no column twice, once their names are unquoted. -/
def NamesDiffer (ps : List Pair) : Prop := (ps.map fun p => Identifier.unquote p.1).Nodup

/-- Names differ if the columns do that they are unquoted to. -/
theorem namesDiffer_iff {ps : List Pair} {es : List (Text × Option Text)}
    (h : List.Forall₂ Reads ps es) : NamesDiffer ps ↔ (es.map Prod.fst).Nodup := by
  have hnames : (ps.map fun p => Identifier.unquote p.1) = (es.map Prod.fst).map .ok := by
    induction h with
    | nil => rfl
    | cons hp _ ih => rw [List.map_cons, List.map_cons, List.map_cons, ih, hp.1]
  rw [NamesDiffer, hnames]
  exact List.nodup_map_iff fun a b hab => Except.ok.inj hab

/-- Pairs are a row if their names differ, and then it has what they are unquoted to. -/
theorem toRow_eq_ok_iff {ps : List Pair} {es : List (Text × Option Text)}
    (h : List.Forall₂ Reads ps es) {r : Row} : toRow ps = .ok r ↔ r.entries = es := by
  rw [toRow_of_reads h, Row.addAll_eq_ok_iff]
  rfl

theorem exists_toRow_iff {ps : List Pair} {es : List (Text × Option Text)}
    (h : List.Forall₂ Reads ps es) : (∃ r, toRow ps = .ok r) ↔ NamesDiffer ps := by
  rw [toRow_of_reads h, Row.exists_addAll_iff, namesDiffer_iff h]
  rfl

/--
**A fragment is read, its keys apart, if and only if its tokens are a sentence and its names
differ**, among the data and among the keys. Then the rows have every column of the sentence in its
place, each with the value that stands beside it. In the sentences a column is a bare or a quoted
name, and a value is a number, a string or a bare word.
-/
theorem read_split_iff_sentence (op : Operation) (sql : Text) :
    (∀ t ∈ tokens sql,
      (isColumn t = true ↔ t.kind = .identifier ∨ t.kind = .quotedIdentifier) ∧
      (isValue t = true ↔
        t.kind = .number ∨ t.kind = .string ∨ t.kind = .dollarString ∨ t.kind = .identifier)) ∧
    ((∃ c, read op true sql = .ok c) ↔
      ∃ ps, Sentence op (tokens sql) ps ∧ NamesDiffer ps.data ∧ NamesDiffer ps.keys) ∧
    ∀ ps c, Sentence op (tokens sql) ps → read op true sql = .ok c →
      ∃ keys data : Row, c = .split keys data ∧
        List.Forall₂ Reads ps.data data.entries ∧ List.Forall₂ Reads ps.keys keys.entries := by
  refine ⟨fun t ht => ⟨isIdentifier_iff_of_mem_tokenize rfl ht, ?_⟩, ⟨?_, ?_⟩, ?_⟩
  · rw [isValue_iff]
    cases t.kind <;> simp [Kind.isLiteral]
  · rintro ⟨c, hc⟩
    obtain ⟨ps, ds, ks, hps, hdata, hkeys, -⟩ := read_split_eq_ok_iff.1 hc
    obtain ⟨⟨des, hdes⟩, kes, hkes⟩ := exists_reads_of_sentence hps
    exact ⟨ps, hps, (exists_toRow_iff hdes).1 ⟨ds, hdata⟩, (exists_toRow_iff hkes).1 ⟨ks, hkeys⟩⟩
  · rintro ⟨ps, hps, hdata, hkeys⟩
    obtain ⟨⟨des, hdes⟩, kes, hkes⟩ := exists_reads_of_sentence hps
    obtain ⟨ds, hds⟩ := (exists_toRow_iff hdes).2 hdata
    obtain ⟨ks, hks⟩ := (exists_toRow_iff hkes).2 hkeys
    exact ⟨.split ks ds, read_split_eq_ok_iff.2 ⟨ps, ds, ks, hps, hds, hks, rfl⟩⟩
  · intro ps c hps hc
    obtain ⟨ps', ds, ks, hps', hdata, hkeys, rfl⟩ := read_split_eq_ok_iff.1 hc
    -- tokens are a sentence in one way only
    cases (pairs_eq_ok_iff.2 hps).symm.trans (pairs_eq_ok_iff.2 hps')
    obtain ⟨⟨des, hdes⟩, kes, hkes⟩ := exists_reads_of_sentence hps
    rw [← (toRow_eq_ok_iff hdes).1 hdata] at hdes
    rw [← (toRow_eq_ok_iff hkes).1 hkeys] at hkes
    exact ⟨ks, ds, rfl, hdes, hkes⟩

/-- Words of the grammar that stand for columns, among strings of two forms and a missing value. -/
theorem read_split_iff_sentence_keywords :
    let sql := "\"Where\" = 'it''s', x = NULL where WHERE = $a$b$a$ And and = 1.5".toList
    ∃ (ps : Pairs) (keys data : Row),
      keys.entries = [("where".toList, some "b".toList), ("and".toList, some "1.5".toList)] ∧
      data.entries = [("Where".toList, some "it's".toList), ("x".toList, none)] ∧
      read .update true sql = .ok (.split keys data) ∧
      Sentence .update (tokens sql) ps ∧ NamesDiffer ps.data ∧ NamesDiffer ps.keys ∧
      List.Forall₂ Reads ps.data data.entries ∧ List.Forall₂ Reads ps.keys keys.entries := by
  intro sql
  let keys : Row :=
    ⟨[("where".toList, some "b".toList), ("and".toList, some "1.5".toList)], by decide⟩
  let data : Row := ⟨[("Where".toList, some "it's".toList), ("x".toList, none)], by decide⟩
  have hread : read .update true sql = .ok (.split keys data) := by decide +kernel
  obtain ⟨-, haccepted, hrows⟩ := read_split_iff_sentence .update sql
  obtain ⟨ps, hps, hdata, hkeys⟩ := haccepted.1 ⟨_, hread⟩
  obtain ⟨keys', data', he, hds, hks⟩ := hrows ps _ hps hread
  cases he
  exact ⟨ps, keys, data, rfl, rfl, hread, hps, hdata, hkeys, hds, hks⟩

end Fragment

end SqlText
