import SqlText.Proofs.Change.Grammar
import SqlText.Proofs.Change.Lexemes
import SqlText.Proofs.Quoting
import SqlText.Proofs.Row

/-!
# Rows come back from their statements

The fragment of the statement that was written for a row is read as the columns and values of that
row. The way goes through four inverses: the lexemes of a written fragment are those of its pieces,
without their spaces they are a sentence of the grammar, names and literals are unquoted to what was
quoted, and columns are added in the order in which they were written.

What cannot be read back is what is no sentence (a row without columns, an update that sets nothing)
and what names a key twice.

## Main statements

* `sentence_insertFragment`, `sentence_updateFragment`, `sentence_predicate`: written fragments are
  sentences.
* `read_split_of_sentence`, `read_merged_of_sentence`: what is read from them.
* `read_written`: rows come back.
-/

namespace SqlText

open Rule Lexeme

/-- The lexemes that are kept of a list with separators. -/
theorem filter_intercalate {α : Type} (p : α → Bool) (sep : List α) (xs : List (List α)) :
    (List.intercalate sep xs).filter p
      = List.intercalate (sep.filter p) (xs.map (List.filter p)) := by
  induction xs with
  | nil => rfl
  | cons x xs ih =>
    cases xs with
    | nil => simp [List.intercalate]
    | cons y ys =>
      simp only [List.intercalate, List.map_cons, List.intersperse_cons_cons, List.flatten_cons,
        List.filter_append] at ih ⊢
      rw [ih]

namespace Fragment

open Change (space mark word nameLexeme literalLexeme equationLexemes settingLexemes
  predicateLexemes)

/-! ## From lexemes to the grammar -/

/-- Tokens with the lexemes of items and separators are a list of these items. -/
theorem sepBy_of_lexemes {α β : Type} {Item : List Token → α → Prop} {isSep : Token → Bool}
    {f : β → List Lexeme} {g : β → α} {l : Lexeme}
    (hitem : ∀ b (ts : List Token), ts.map Token.lexeme = f b → Item ts (g b))
    (hsep : ∀ t : Token, t.lexeme = l → isSep t = true) {bs : List β} (hbs : bs ≠ [])
    {ts : List Token} (h : ts.map Token.lexeme = List.intercalate [l] (bs.map f)) :
    SepBy Item isSep ts (bs.map g) := by
  induction bs generalizing ts with
  | nil => exact absurd rfl hbs
  | cons b bs ih =>
    cases bs with
    | nil =>
      refine .single (hitem b ts ?_)
      simpa [List.intercalate] using h
    | cons b' bs =>
      have hcons : List.intercalate [l] ((b :: b' :: bs).map f)
          = f b ++ l :: List.intercalate [l] ((b' :: bs).map f) := by
        simp [List.intercalate]
      rw [hcons] at h
      obtain ⟨us, vs, rfl, hus, hvs⟩ := List.map_eq_append_iff.1 h
      obtain ⟨t, ws, rfl, ht, hws⟩ := List.map_eq_cons_iff.1 hvs
      exact .cons (hitem b us hus) (hsep t ht) (ih (List.cons_ne_nil _ _) hws)

theorem isSymbol_of_mark {c : Char} {t : Token} (h : t.lexeme = mark c) :
    t.isSymbol [c] = true := Token.isSymbol_iff.2 h

theorem isKeyword_of_word {w : String} {t : Token} (h : t.lexeme = word w) :
    t.isKeyword w.toList = true := by
  obtain ⟨hkind, htext⟩ := Prod.mk.inj h
  rw [Token.isKeyword, hkind, htext]
  simp [Text.sameWord]

theorem isColumn_of_nameLexeme {n : Text} {t : Token} (h : t.lexeme = nameLexeme n) :
    isColumn t = true := by
  have hkind : t.kind = nameKind n := congrArg Prod.fst h
  rw [isColumn, hkind, nameKind]
  split <;> rfl

theorem isValue_of_literalLexeme {v : Option Text} {t : Token}
    (h : t.lexeme = literalLexeme v) : isValue t = true := by
  have hkind : t.kind = literalKind v := congrArg Prod.fst h
  rw [isValue, hkind]
  cases v <;> rfl

theorem column_of_lexemes (n : Text) {ts : List Token}
    (h : ts.map Token.lexeme = [nameLexeme n]) : Column ts (Identifier.quote n) := by
  obtain ⟨t, rfl, ht⟩ := List.map_eq_singleton_iff.1 h
  have htext : t.text = Identifier.quote n := congrArg Prod.snd ht
  rw [← htext]
  exact .mk (isColumn_of_nameLexeme ht)

theorem value_of_lexemes (v : Option Text) {ts : List Token}
    (h : ts.map Token.lexeme = [literalLexeme v]) : Value ts (Literal.quote v) := by
  obtain ⟨t, rfl, ht⟩ := List.map_eq_singleton_iff.1 h
  have htext : t.text = Literal.quote v := congrArg Prod.snd ht
  rw [← htext]
  exact .mk (isValue_of_literalLexeme ht)

/-- A column and its value as they are written. -/
def written (e : Text × Option Text) : Pair := (Identifier.quote e.1, Literal.quote e.2)

theorem equation_of_lexemes (e : Text × Option Text) {ts : List Token}
    (h : ts.map Token.lexeme = [nameLexeme e.1, mark '=', literalLexeme e.2]) :
    Equation ts (written e) := by
  obtain ⟨c, ts₁, rfl, hc, h₁⟩ := List.map_eq_cons_iff.1 h
  obtain ⟨s, ts₂, rfl, hs, h₂⟩ := List.map_eq_cons_iff.1 h₁
  obtain ⟨v, rfl, hv⟩ := List.map_eq_singleton_iff.1 h₂
  have hwritten : written e = (c.text, v.text) :=
    congrArg₂ Prod.mk (congrArg Prod.snd hc).symm (congrArg Prod.snd hv).symm
  rw [hwritten]
  exact .mk (isColumn_of_nameLexeme hc) (isSymbol_of_mark hs) (isValue_of_literalLexeme hv)

/-! ## Written fragments are sentences -/

/-- The lexemes that the reader of a fragment sees. -/
def seen (ls : List Lexeme) : List Lexeme := ls.filter (isKept { ignoreBlanks := true })

theorem seen_append (ls ms : List Lexeme) : seen (ls ++ ms) = seen ls ++ seen ms :=
  List.filter_append ls ms

/-- What is seen of a list with separators, by what is seen of its items. -/
theorem seen_intercalate {α : Type} (sep : List Lexeme) {f g : α → List Lexeme}
    (h : ∀ a, seen (f a) = g a) (as : List α) :
    seen (List.intercalate sep (as.map f)) = List.intercalate (seen sep) (as.map g) := by
  rw [seen, filter_intercalate, List.map_map]
  exact congrArg _ (List.map_congr_left fun a _ => h a)

theorem seen_name (n : Text) : seen [nameLexeme n] = [nameLexeme n] := by
  have hkind : nameKind n ≠ .blank := by
    unfold nameKind
    split <;> decide
  simp [seen, isKept, nameLexeme, hkind]

theorem seen_literal (v : Option Text) : seen [literalLexeme v] = [literalLexeme v] := by
  cases v <;> rfl

theorem seen_equation (e : Text × Option Text) :
    seen (equationLexemes e) = [nameLexeme e.1, mark '=', literalLexeme e.2] := by
  have hparts : equationLexemes e
      = [nameLexeme e.1] ++ [space, mark '=', space] ++ [literalLexeme e.2] := rfl
  rw [hparts, seen_append, seen_append, seen_name, seen_literal]
  rfl

theorem map_lexeme_tokens (f : Text) : (tokens f).map Token.lexeme = seen (lexemes .legacy f) := by
  rw [tokens, tokenize_eq_place, map_lexeme_place]
  rfl

/-- Equations with separators are a list of equations. -/
theorem sepBy_equations {sep : List Lexeme} {l : Lexeme} {isSep : Token → Bool}
    (hseen : seen sep = [l]) (hsep : ∀ t : Token, t.lexeme = l → isSep t = true)
    {es : Change.Record} (hes : es ≠ []) {ts : List Token}
    (h : ts.map Token.lexeme = seen (List.intercalate sep (es.map equationLexemes))) :
    SepBy Equation isSep ts (es.map written) := by
  rw [seen_intercalate sep seen_equation, hseen] at h
  exact sepBy_of_lexemes (fun e _ he => equation_of_lexemes e he) hsep hes h

theorem sepBy_setting {set : Change.Record} (hset : set ≠ []) {ts : List Token}
    (h : ts.map Token.lexeme = seen (settingLexemes set)) :
    SepBy Equation (·.isSymbol [',']) ts (set.map written) :=
  sepBy_equations (l := mark ',') rfl (fun _ => isSymbol_of_mark) hset h

theorem sepBy_predicate {keys : Change.Record} (hkeys : keys ≠ []) {ts : List Token}
    (h : ts.map Token.lexeme = seen (predicateLexemes keys)) :
    SepBy Equation (·.isKeyword "and".toList) ts (keys.map written) :=
  sepBy_equations (l := word "and") rfl (fun _ => isKeyword_of_word) hkeys h

theorem map_lexeme_tokens_insert (r : Change.Record) :
    (tokens (Change.insertFragment r)).map Token.lexeme
      = mark '(' :: (List.intercalate [mark ','] (r.map fun e => [nameLexeme e.1])
        ++ mark ')' :: word "values" :: mark '('
        :: (List.intercalate [mark ','] (r.map fun e => [literalLexeme e.2]) ++ [mark ')'])) := by
  have hlexemes : lexemes .legacy (Change.insertFragment r) = Change.insertLexemes r := by
    have := Change.lexemes_insertFragment (d := .legacy) rfl r []
    rwa [List.append_nil, lexemes_nil, List.append_nil] at this
  have hname : ∀ e : Text × Option Text, seen [nameLexeme e.1] = [nameLexeme e.1] :=
    fun e => seen_name e.1
  have hliteral : ∀ e : Text × Option Text, seen [literalLexeme e.2] = [literalLexeme e.2] :=
    fun e => seen_literal e.2
  rw [map_lexeme_tokens, hlexemes, Change.insertLexemes, ← List.singleton_append, seen_append,
    seen_append, seen_append, seen_append, seen_intercalate _ hname, seen_intercalate _ hliteral]
  simp [seen, isKept, mark, word, space]

theorem map_lexeme_tokens_update (set : Change.Record) {keys : Change.Record} (hkeys : keys ≠ []) :
    (tokens (Change.updateFragment set keys)).map Token.lexeme
      = seen (settingLexemes set) ++ word "where" :: seen (predicateLexemes keys) := by
  have hlexemes : lexemes .legacy (Change.updateFragment set keys)
      = settingLexemes set ++ [space, word "where", space] ++ predicateLexemes keys := by
    have := Change.lexemes_updateFragment (d := .legacy) rfl set hkeys delimited_nil
    rwa [List.append_nil, lexemes_nil, List.append_nil] at this
  rw [map_lexeme_tokens, hlexemes, seen_append, seen_append, List.append_assoc]
  rfl

theorem sentence_insertFragment {r : Change.Record} (hr : r ≠ []) :
    Sentence .insert (tokens (Change.insertFragment r)) ⟨r.map written, []⟩ := by
  obtain ⟨o, ts₁, hts, ho, h₁⟩ := List.map_eq_cons_iff.1 (map_lexeme_tokens_insert r)
  obtain ⟨cs, ts₂, rfl, hcs, h₂⟩ := List.map_eq_append_iff.1 h₁
  obtain ⟨c, ts₃, rfl, hc, h₃⟩ := List.map_eq_cons_iff.1 h₂
  obtain ⟨w, ts₄, rfl, hw, h₄⟩ := List.map_eq_cons_iff.1 h₃
  obtain ⟨o', ts₅, rfl, ho', h₅⟩ := List.map_eq_cons_iff.1 h₄
  obtain ⟨vs, ts₆, rfl, hvs, h₆⟩ := List.map_eq_append_iff.1 h₅
  obtain ⟨c', rfl, hc'⟩ := List.map_eq_singleton_iff.1 h₆
  have hcolumns : SepBy Column (·.isSymbol [',']) cs (r.map fun e => Identifier.quote e.1) :=
    sepBy_of_lexemes (fun e _ he => column_of_lexemes e.1 he) (fun _ => isSymbol_of_mark) hr hcs
  have hvalues : SepBy Value (·.isSymbol [',']) vs (r.map fun e => Literal.quote e.2) :=
    sepBy_of_lexemes (fun e _ he => value_of_lexemes e.2 he) (fun _ => isSymbol_of_mark) hr hvs
  have hpairs : r.map written
      = (r.map fun e => Identifier.quote e.1).zip (r.map fun e => Literal.quote e.2) := by
    rw [List.zip_map']
    rfl
  rw [hts, hpairs]
  exact .insert (isSymbol_of_mark ho) hcolumns (isSymbol_of_mark hc) (isKeyword_of_word hw)
    (isSymbol_of_mark ho') hvalues (isSymbol_of_mark hc') (by simp)

theorem sentence_updateFragment {set keys : Change.Record} (hset : set ≠ []) (hkeys : keys ≠ []) :
    Sentence .update (tokens (Change.updateFragment set keys))
      ⟨set.map written, keys.map written⟩ := by
  obtain ⟨ds, ts₁, hts, hds, h₁⟩ := List.map_eq_append_iff.1 (map_lexeme_tokens_update set hkeys)
  obtain ⟨w, ks, rfl, hw, hks⟩ := List.map_eq_cons_iff.1 h₁
  rw [hts]
  exact .update (sepBy_setting hset hds) (isKeyword_of_word hw) (sepBy_predicate hkeys hks)

theorem sentence_predicate {keys : Change.Record} (hkeys : keys ≠ []) :
    Sentence .delete (tokens (Change.predicate keys)) ⟨[], keys.map written⟩ := by
  have hlexemes : lexemes .legacy (Change.predicate keys) = predicateLexemes keys := by
    have := Change.lexemes_predicate (d := .legacy) rfl keys delimited_nil
    rwa [List.append_nil, lexemes_nil, List.append_nil] at this
  refine .delete (sepBy_predicate hkeys ?_)
  rw [map_lexeme_tokens, hlexemes]

/-! ## Fragments that are no sentences -/

/-- A row without columns has no list of columns. -/
theorem not_sentence_insertFragment (ps : Pairs) :
    ¬Sentence .insert (tokens (Change.insertFragment [])) ps := by
  have hlexemes := map_lexeme_tokens_insert []
  generalize tokens (Change.insertFragment []) = ts at hlexemes
  intro h
  cases h with
  | insert ho hcs =>
    -- the token behind the opening parenthesis closes it, where a column is asked for
    obtain ⟨us, rest, column, rfl, hfirst⟩ := hcs.exists_first
    cases hfirst with
    | @mk t ht =>
      have hclose : t.lexeme = mark ')' :=
        (List.cons.inj (List.cons.inj hlexemes).2).1
      rw [isColumn, show t.kind = .symbol from congrArg Prod.fst hclose] at ht
      cases ht

/-- An update that sets nothing has no list of equations. -/
theorem not_sentence_updateFragment {keys : Change.Record} (hkeys : keys ≠ []) (ps : Pairs) :
    ¬Sentence .update (tokens (Change.updateFragment [] keys)) ps := by
  have hlexemes := map_lexeme_tokens_update [] hkeys
  generalize tokens (Change.updateFragment [] keys) = ts at hlexemes
  obtain ⟨e, keys, rfl⟩ := List.exists_cons_of_ne_nil hkeys
  obtain ⟨ls, hpredicate⟩ : ∃ ls, seen (predicateLexemes (e :: keys))
      = nameLexeme e.1 :: ls := by
    rw [predicateLexemes, seen_intercalate _ seen_equation]
    cases keys with
    | nil => exact ⟨_, rfl⟩
    | cons e' keys => exact ⟨_, rfl⟩
  intro h
  cases h with
  | update hds =>
    -- behind the word `where`, read as a column, stands a name, where an equals sign is asked for
    obtain ⟨us, rest, p, rfl, hfirst⟩ := hds.exists_first
    cases hfirst with
    | @mk c s v hc hs hv =>
      rw [hpredicate] at hlexemes
      have hname : s.lexeme = nameLexeme e.1 :=
        (List.cons.inj (List.cons.inj hlexemes).2).1
      have hkind : nameKind e.1 = .symbol := by
        rw [Token.isSymbol_iff.1 hs] at hname
        exact (congrArg Prod.fst hname).symm
      unfold nameKind at hkind
      split at hkind <;> cases hkind

/-! ## Reading -/

theorem read_split_eq_ok_iff {op : Operation} {sql : Text} {c : Content} :
    read op true sql = .ok c ↔
      ∃ ps ds ks, Sentence op (tokens sql) ps ∧ toRow ps.data = .ok ds ∧ toRow ps.keys = .ok ks ∧
        c = .split ks ds := by
  constructor
  · intro h
    obtain ⟨ps, hps, h₁⟩ := bind_eq_ok_iff.1 h
    obtain ⟨ds, hds, h₂⟩ := bind_eq_ok_iff.1 h₁
    obtain ⟨ks, hks, hresult⟩ := bind_eq_ok_iff.1 h₂
    cases hresult
    exact ⟨ps, ds, ks, pairs_eq_ok_iff.1 hps, hds, hks, rfl⟩
  · rintro ⟨ps, ds, ks, hps, hds, hks, rfl⟩
    refine bind_eq_ok_iff.2 ⟨ps, pairs_eq_ok_iff.2 hps, ?_⟩
    refine bind_eq_ok_iff.2 ⟨ds, hds, ?_⟩
    exact bind_eq_ok_iff.2 ⟨ks, hks, rfl⟩

theorem read_merged_eq_ok_iff {op : Operation} {sql : Text} {c : Content} :
    read op false sql = .ok c ↔
      ∃ ps ds ks m, Sentence op (tokens sql) ps ∧ toRow ps.data = .ok ds ∧ toRow ps.keys = .ok ks ∧
        ds.append ks = .ok m ∧ c = .merged m := by
  constructor
  · intro h
    obtain ⟨ps, hps, h₁⟩ := bind_eq_ok_iff.1 h
    obtain ⟨ds, hds, h₂⟩ := bind_eq_ok_iff.1 h₁
    obtain ⟨ks, hks, h₃⟩ := bind_eq_ok_iff.1 h₂
    obtain ⟨m, hm, hresult⟩ := bind_eq_ok_iff.1 h₃
    cases hresult
    exact ⟨ps, ds, ks, m, pairs_eq_ok_iff.1 hps, hds, hks, hm, rfl⟩
  · rintro ⟨ps, ds, ks, m, hps, hds, hks, hm, rfl⟩
    refine bind_eq_ok_iff.2 ⟨ps, pairs_eq_ok_iff.2 hps, ?_⟩
    refine bind_eq_ok_iff.2 ⟨ds, hds, ?_⟩
    refine bind_eq_ok_iff.2 ⟨ks, hks, ?_⟩
    exact bind_eq_ok_iff.2 ⟨m, hm, rfl⟩

/-- Whether a pair is unquoted to a column and its value. -/
def Reads (p : Pair) (e : Text × Option Text) : Prop :=
  Identifier.unquote p.1 = .ok e.1 ∧ Literal.unquote false p.2 = .ok e.2

theorem addPair_of_reads (r : Row) {p : Pair} {e : Text × Option Text} (h : Reads p e) :
    addPair r p = r.add e.1 e.2 := by
  rw [addPair, h.1, h.2]
  rfl

/-- **Pairs are added as what they are unquoted to**, one after another. -/
theorem toRow_of_reads {ps : List Pair} {es : List (Text × Option Text)}
    (h : List.Forall₂ Reads ps es) : toRow ps = Row.empty.addAll es := by
  have hfold : ∀ r : Row, ps.foldlM addPair r = r.addAll es := by
    induction h with
    | nil => exact fun r => rfl
    | cons hp _ ih =>
      intro r
      rw [List.foldlM_cons, Row.addAll_cons, addPair_of_reads r hp]
      simp only [ih]
  exact hfold Row.empty

/-- Written pairs are unquoted to what was written. -/
theorem reads_written (e : Text × Option Text) : Reads (written e) e :=
  ⟨Identifier.unquote_quote e.1, Literal.unquote_quote false e.2⟩

theorem toRow_written (es : List (Text × Option Text)) :
    toRow (es.map written) = Row.empty.addAll es := by
  refine toRow_of_reads (List.forall₂_map_left_iff.2 ?_)
  exact List.forall₂_same.2 fun e _ => reads_written e

/-- **The parts of a written fragment come back apart.** -/
theorem read_split_of_sentence {op : Operation} {f : Text} {ds ks : Row}
    (h : Sentence op (tokens f) ⟨ds.entries.map written, ks.entries.map written⟩) :
    read op true f = .ok (.split ks ds) := by
  refine read_split_eq_ok_iff.2 ⟨_, ds, ks, h, ?_, ?_, rfl⟩
  · exact (toRow_written ds.entries).trans (Row.addAll_eq_ok_iff.2 rfl)
  · exact (toRow_written ks.entries).trans (Row.addAll_eq_ok_iff.2 rfl)

/-- **The parts of a written fragment come back as one row**, the data first. -/
theorem read_merged_of_sentence {op : Operation} {f : Text} {ds ks m : Row}
    (h : Sentence op (tokens f) ⟨ds.entries.map written, ks.entries.map written⟩)
    (hm : m.entries = ds.entries ++ ks.entries) : read op false f = .ok (.merged m) := by
  refine read_merged_eq_ok_iff.2 ⟨_, ds, ks, m, h, ?_, ?_, Row.append_eq_ok_iff.2 hm, rfl⟩
  · exact (toRow_written ds.entries).trans (Row.addAll_eq_ok_iff.2 rfl)
  · exact (toRow_written ks.entries).trans (Row.addAll_eq_ok_iff.2 rfl)

/-- What is read is a sentence, and its parts are rows. -/
theorem sentence_of_read {op : Operation} {splitKeys : Bool} {sql : Text} {c : Content}
    (h : read op splitKeys sql = .ok c) :
    ∃ ps, Sentence op (tokens sql) ps ∧ (∃ ds, toRow ps.data = .ok ds) ∧
      ∃ ks, toRow ps.keys = .ok ks := by
  obtain ⟨ps, hps, h₁⟩ := bind_eq_ok_iff.1 h
  obtain ⟨ds, hds, h₂⟩ := bind_eq_ok_iff.1 h₁
  obtain ⟨ks, hks, -⟩ := bind_eq_ok_iff.1 h₂
  exact ⟨ps, pairs_eq_ok_iff.1 hps, ⟨ds, hds⟩, ⟨ks, hks⟩⟩

/-- A written fragment that is read names no key twice. -/
theorem nodup_of_read {op : Operation} {splitKeys : Bool} {f : Text} {data : List Pair}
    {keys : Change.Record} {c : Content} (h : Sentence op (tokens f) ⟨data, keys.map written⟩)
    (hread : read op splitKeys f = .ok c) : (keys.map Prod.fst).Nodup := by
  obtain ⟨ps, hps, -, ks, hks⟩ := sentence_of_read hread
  -- tokens are a sentence in one way only
  cases (pairs_eq_ok_iff.2 h).symm.trans (pairs_eq_ok_iff.2 hps)
  exact Row.exists_addAll_iff.1 ⟨ks, (toRow_written keys).symm.trans hks⟩

/-! ## Rows -/

/-- A fragment is read, with and without its keys apart. -/
theorem exists_read {op : Operation} {f : Text} {c c' : Content} (h : read op true f = .ok c)
    (h' : read op false f = .ok c') (splitKeys : Bool) : ∃ c, read op splitKeys f = .ok c := by
  cases splitKeys with
  | true => exact ⟨c, h⟩
  | false => exact ⟨c', h'⟩

theorem read_insertFragment {r : Row} (hr : r.entries ≠ []) :
    read .insert true (Change.insertFragment r.entries) = .ok (.split Row.empty r) ∧
      read .insert false (Change.insertFragment r.entries) = .ok (.merged r) := by
  have hsentence : Sentence .insert (tokens (Change.insertFragment r.entries))
      ⟨r.entries.map written, Row.empty.entries.map written⟩ := sentence_insertFragment hr
  exact ⟨read_split_of_sentence hsentence,
    read_merged_of_sentence hsentence (List.append_nil _).symm⟩

theorem read_predicate {found : Change.Record} (hfound : found ≠ [])
    (hnodup : (found.map Prod.fst).Nodup) :
    ∃ ks : Row, ks.entries = found ∧
      read .delete true (Change.predicate found) = .ok (.split ks Row.empty) ∧
      read .delete false (Change.predicate found) = .ok (.merged ks) := by
  obtain ⟨ks, rfl⟩ : ∃ ks : Row, ks.entries = found := ⟨⟨found, hnodup⟩, rfl⟩
  have hsentence : Sentence .delete (tokens (Change.predicate ks.entries))
      ⟨Row.empty.entries.map written, ks.entries.map written⟩ := sentence_predicate hfound
  exact ⟨ks, rfl, read_split_of_sentence hsentence, read_merged_of_sentence hsentence rfl⟩

end Fragment

open Fragment

namespace Row

/-- The columns of a row that are no keys, in their order. -/
def without (r : Row) (keys : List Text) : Row :=
  ⟨r.entries.filter fun e => !keys.contains e.1, r.nodup.sublist (List.filter_sublist.map _)⟩

theorem without_ne_nil_iff {r : Row} {keys : List Text} :
    (r.without keys).entries ≠ [] ↔ ∃ c ∈ r.columns, c ∉ keys := by
  simp [without, columns, List.filter_eq_nil_iff]

/-- The other columns and the keys make up one row. -/
theorem exists_without_append (r ks : Row) :
    ∃ m : Row, m.entries = (r.without ks.columns).entries ++ ks.entries := by
  refine ⟨⟨_, ?_⟩, rfl⟩
  rw [List.map_append, List.nodup_append]
  refine ⟨(r.without ks.columns).nodup, ks.nodup, ?_⟩
  rintro c hc c' hc' rfl
  obtain ⟨e, he, rfl⟩ := List.mem_map.1 hc
  have hno : e.1 ∉ ks.columns := by simpa using (List.mem_filter.1 he).2
  exact hno hc'

end Row

theorem read_updateFragment {r : Row} {found : Change.Record} (hfound : found ≠ [])
    (hnodup : (found.map Prod.fst).Nodup) (hset : ∃ c ∈ r.columns, c ∉ found.map Prod.fst) :
    ∃ ks ds m : Row, ks.entries = found ∧ ds = r.without (found.map Prod.fst) ∧
      m.entries = ds.entries ++ ks.entries ∧
      read .update true (Change.updateFragment ds.entries found) = .ok (.split ks ds) ∧
      read .update false (Change.updateFragment ds.entries found) = .ok (.merged m) := by
  obtain ⟨ks, rfl⟩ : ∃ ks : Row, ks.entries = found := ⟨⟨found, hnodup⟩, rfl⟩
  have hsentence := sentence_updateFragment (Row.without_ne_nil_iff.2 hset) hfound
  obtain ⟨m, hm⟩ := Row.exists_without_append r ks
  exact ⟨ks, r.without ks.columns, m, rfl, rfl, hm, read_split_of_sentence hsentence,
    read_merged_of_sentence hsentence hm⟩

/-- An update is read only if it sets something and names no key twice. -/
theorem nodup_of_read_updateFragment {r : Row} {keys : List Text} {found : Change.Record}
    (hfound : found ≠ []) {splitKeys : Bool} {c : Content}
    (h : read .update splitKeys (Change.updateFragment (r.without keys).entries found) = .ok c) :
    (found.map Prod.fst).Nodup ∧ ∃ c ∈ r.columns, c ∉ keys := by
  by_cases hset : (r.without keys).entries = []
  · obtain ⟨ps, hps, -⟩ := sentence_of_read h
    rw [hset] at hps
    exact absurd hps (not_sentence_updateFragment hfound ps)
  · exact ⟨nodup_of_read (sentence_updateFragment hset hfound) h, Row.without_ne_nil_iff.1 hset⟩

/--
**Rows come back from their statements.** The fragment `f` of a statement is what stands between its
head and its semicolon. An insert is read if the row has columns, an update if no key is named twice
and a column is left to set, and a delete if no key is named twice. Then the keys come back in the
order in which they were asked for, with the values of the row, and the other columns in the order of
the row.
-/
theorem read_written (r : Row) (table : Text) (keys : List Text) :
    (∃ f, Change.insert r.entries table = Change.head .insert table ++ f ++ [';'] ∧
      (∀ splitKeys, (∃ c, read .insert splitKeys f = .ok c) ↔ r.entries ≠ []) ∧
      (r.entries ≠ [] →
        read .insert true f = .ok (.split Row.empty r) ∧ read .insert false f = .ok (.merged r))) ∧
    (∀ s, Change.update r.entries table keys = .ok s →
      ∃ f, s = Change.head .update table ++ f ++ [';'] ∧
        (∀ splitKeys, (∃ c, read .update splitKeys f = .ok c) ↔
          keys.Nodup ∧ ∃ c ∈ r.columns, c ∉ keys) ∧
        (keys.Nodup → (∃ c ∈ r.columns, c ∉ keys) →
          ∃ ks ds m : Row, ks.columns = keys ∧ (∀ e ∈ ks.entries, e ∈ r.entries) ∧
            ds.entries = r.entries.filter (fun e => !keys.contains e.1) ∧
            m.entries = ds.entries ++ ks.entries ∧
            read .update true f = .ok (.split ks ds) ∧ read .update false f = .ok (.merged m))) ∧
    (∀ s, Change.delete r.entries table keys = .ok s →
      ∃ f, s = Change.head .delete table ++ f ++ [';'] ∧
        (∀ splitKeys, (∃ c, read .delete splitKeys f = .ok c) ↔ keys.Nodup) ∧
        (keys.Nodup →
          ∃ ks : Row, ks.columns = keys ∧ (∀ e ∈ ks.entries, e ∈ r.entries) ∧
            read .delete true f = .ok (.split ks Row.empty) ∧
            read .delete false f = .ok (.merged ks))) := by
  refine ⟨⟨Change.insertFragment r.entries, Change.insertText_eq table r.entries, ?_, ?_⟩, ?_, ?_⟩
  · intro splitKeys
    constructor
    · rintro ⟨c, hc⟩ hr
      obtain ⟨ps, hps, -⟩ := sentence_of_read hc
      rw [hr] at hps
      exact not_sentence_insertFragment ps hps
    · intro hr
      exact exists_read (read_insertFragment hr).1 (read_insertFragment hr).2 splitKeys
  · exact read_insertFragment
  · intro s hs
    obtain ⟨found, hfound, hresult⟩ := bind_eq_ok_iff.1 hs
    cases hresult
    have hne := Change.ne_nil_of_keyed hfound
    obtain ⟨rfl, hmem⟩ := Change.columns_of_keyed hfound
    refine ⟨_, Change.updateText_eq table _ found, fun splitKeys => ⟨?_, ?_⟩, ?_⟩
    · rintro ⟨c, hc⟩
      exact nodup_of_read_updateFragment hne hc
    · rintro ⟨hnodup, hset⟩
      obtain ⟨ks, ds, m, -, rfl, -, htrue, hfalse⟩ := read_updateFragment hne hnodup hset
      exact exists_read htrue hfalse splitKeys
    · intro hnodup hset
      obtain ⟨ks, ds, m, rfl, rfl, hm, hread⟩ := read_updateFragment hne hnodup hset
      exact ⟨ks, _, m, rfl, hmem, rfl, hm, hread⟩
  · intro s hs
    obtain ⟨found, hfound, hresult⟩ := bind_eq_ok_iff.1 hs
    cases hresult
    have hne := Change.ne_nil_of_keyed hfound
    obtain ⟨rfl, hmem⟩ := Change.columns_of_keyed hfound
    refine ⟨_, Change.deleteText_eq table found, fun splitKeys => ⟨?_, ?_⟩, ?_⟩
    · rintro ⟨c, hc⟩
      exact nodup_of_read (sentence_predicate hne) hc
    · intro hnodup
      obtain ⟨ks, -, htrue, hfalse⟩ := read_predicate hne hnodup
      exact exists_read htrue hfalse splitKeys
    · intro hnodup
      obtain ⟨ks, rfl, hread⟩ := read_predicate hne hnodup
      exact ⟨ks, rfl, hmem, hread⟩

/-- A column named `where`, a missing value, a quote and a backslash come back from an update. -/
theorem read_written_reserved :
    ∃ (r : Row) (f : Text) (ks ds : Row),
      r.entries = [("where".toList, none), ("it's".toList, some "a\\'b".toList)] ∧
      Change.update r.entries "t".toList ["where".toList]
        = .ok (Change.head .update "t".toList ++ f ++ [';']) ∧
      read .update true f = .ok (.split ks ds) ∧ ks.columns = ["where".toList] ∧
      ds.entries = [("it's".toList, some "a\\'b".toList)] := by
  obtain ⟨r, hr⟩ : ∃ r : Row,
      r.entries = [("where".toList, none), ("it's".toList, some "a\\'b".toList)] :=
    ⟨⟨_, by decide⟩, rfl⟩
  obtain ⟨s, hs⟩ : ∃ s, Change.update r.entries "t".toList ["where".toList] = .ok s := by
    rw [hr]
    exact ⟨_, rfl⟩
  obtain ⟨f, rfl, -, hread⟩ := (read_written r "t".toList ["where".toList]).2.1 s hs
  have hset : ∃ c ∈ r.columns, c ∉ ["where".toList] := by
    rw [Row.columns, hr]
    decide
  obtain ⟨ks, ds, m, hkeys, -, hdata, -, hsplit, -⟩ := hread (by decide) hset
  refine ⟨r, f, ks, ds, hr, hs, hsplit, hkeys, ?_⟩
  rw [hdata, hr]
  decide

end SqlText
