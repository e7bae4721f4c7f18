import SqlText.Change.Fragment
import SqlText.Proofs.Result
import SqlText.Proofs.Token.Lexeme

/-!
# The grammar of change fragments

What the reader of fragments accepts, as relations between tokens and what they say: a list with
separators (`SepBy`), an equation, and a sentence for each operation. The reader accepts the
sentences and nothing else.

Each reading function takes a piece off the front of its tokens, so its law says which piece that is
and that the rest is left as it stands.

## Main statements

* `columnList_eq_ok_iff`, `valueList_eq_ok_iff`, `assignments_eq_ok_iff`, `predicate_eq_ok_iff`: what
  each list of the grammar takes off.
* `pairs_eq_ok_iff`: the tokens that are read are the sentences.
-/

namespace SqlText

namespace Fragment

/-! ## The grammar -/

/-- The tokens of one or more items, with a separator between each two of them. -/
inductive SepBy {α : Type} (Item : List Token → α → Prop) (isSep : Token → Bool) :
    List Token → List α → Prop
  | single {ts : List Token} {a : α} : Item ts a → SepBy Item isSep ts [a]
  | cons {ts : List Token} {a : α} {sep : Token} {us : List Token} {as : List α} :
      Item ts a → isSep sep = true → SepBy Item isSep us as →
        SepBy Item isSep (ts ++ sep :: us) (a :: as)

/-- A token that names a column. -/
inductive Column : List Token → Text → Prop
  | mk {t : Token} : isColumn t = true → Column [t] t.text

/-- A token that is a value. -/
inductive Value : List Token → Text → Prop
  | mk {t : Token} : isValue t = true → Value [t] t.text

/-- The tokens of `column = value`. -/
inductive Equation : List Token → Pair → Prop
  | mk {c e v : Token} : isColumn c = true → e.isSymbol ['='] = true → isValue v = true →
      Equation [c, e, v] (c.text, v.text)

/-- The tokens of an operation's fragment. -/
inductive Sentence : Operation → List Token → Pairs → Prop
  | insert {o c w o' c' : Token} {cs vs : List Token} {columns values : List Text} :
      o.isSymbol ['('] = true → SepBy Column (·.isSymbol [',']) cs columns →
      c.isSymbol [')'] = true → w.isKeyword "values".toList = true →
      o'.isSymbol ['('] = true → SepBy Value (·.isSymbol [',']) vs values →
      c'.isSymbol [')'] = true → values.length = columns.length →
        Sentence .insert (o :: (cs ++ c :: w :: o' :: (vs ++ [c']))) ⟨columns.zip values, []⟩
  | update {w : Token} {ds ks : List Token} {data keys : List Pair} :
      SepBy Equation (·.isSymbol [',']) ds data → w.isKeyword "where".toList = true →
      SepBy Equation (·.isKeyword "and".toList) ks keys →
        Sentence .update (ds ++ w :: ks) ⟨data, keys⟩
  | delete {ks : List Token} {keys : List Pair} :
      SepBy Equation (·.isKeyword "and".toList) ks keys → Sentence .delete ks ⟨[], keys⟩

/-- There is at least one item. -/
theorem SepBy.ne_nil {α : Type} {Item : List Token → α → Prop} {isSep : Token → Bool}
    {ts : List Token} {as : List α} (h : SepBy Item isSep ts as) : as ≠ [] := by
  cases h with
  | single _ => exact List.cons_ne_nil _ _
  | cons _ _ _ => exact List.cons_ne_nil _ _

/-- The first item stands at the front. -/
theorem SepBy.exists_first {α : Type} {Item : List Token → α → Prop} {isSep : Token → Bool}
    {ts : List Token} {as : List α} (h : SepBy Item isSep ts as) :
    ∃ us rest a, ts = us ++ rest ∧ Item us a := by
  cases h with
  | single ha => exact ⟨ts, [], _, (List.append_nil ts).symm, ha⟩
  | cons ha _ _ => exact ⟨_, _, _, rfl, ha⟩

/-- Every item stands among the tokens. -/
theorem SepBy.exists_item {α : Type} {Item : List Token → α → Prop} {isSep : Token → Bool}
    {ts : List Token} {as : List α} (h : SepBy Item isSep ts as) {a : α} (ha : a ∈ as) :
    ∃ us, us ⊆ ts ∧ Item us a := by
  induction h with
  | @single us _ hitem =>
    cases List.mem_singleton.1 ha
    exact ⟨us, List.Subset.refl us, hitem⟩
  | @cons us _ sep vs as hitem _ _ ih =>
    rcases List.mem_cons.1 ha with rfl | ha
    · exact ⟨us, List.subset_append_left us _, hitem⟩
    · obtain ⟨ws, hws, hitem'⟩ := ih ha
      have hvs : vs ⊆ us ++ sep :: vs := fun t ht => by simp [ht]
      exact ⟨ws, List.Subset.trans hws hvs, hitem'⟩

/-- The pairs of a sentence are a column and a value of its tokens. -/
theorem Sentence.exists_tokens {op : Operation} {ts : List Token} {ps : Pairs}
    (h : Sentence op ts ps) {p : Pair} (hp : p ∈ ps.data ++ ps.keys) :
    ∃ c v : Token, c ∈ ts ∧ v ∈ ts ∧ isColumn c = true ∧ isValue v = true ∧
      p = (c.text, v.text) := by
  have hequation : ∀ {isSep : Token → Bool} {us : List Token} {qs : List Pair},
      SepBy Equation isSep us qs → p ∈ qs → us ⊆ ts →
      ∃ c v : Token, c ∈ ts ∧ v ∈ ts ∧ isColumn c = true ∧ isValue v = true ∧
        p = (c.text, v.text) := by
    intro isSep us qs hqs hmem hsub
    obtain ⟨ws, hws, hitem⟩ := hqs.exists_item hmem
    cases hitem with
    | @mk c e v hc _ hv =>
      exact ⟨c, v, hsub (hws (by simp)), hsub (hws (by simp)), hc, hv, rfl⟩
  cases h with
  | @insert o close w o' close' cs vs columns values _ hcs _ _ _ hvs _ _ =>
    rw [List.append_nil] at hp
    obtain ⟨hcolumn, hvalue⟩ := List.of_mem_zip hp
    obtain ⟨us, hus, hc⟩ := hcs.exists_item hcolumn
    obtain ⟨us', hus', hv⟩ := hvs.exists_item hvalue
    obtain ⟨p₁, p₂⟩ := p
    cases hc with
    | @mk c hc =>
      cases hv with
      | @mk v hv =>
        have hcmem : c ∈ cs := hus (by simp)
        have hvmem : v ∈ vs := hus' (by simp)
        exact ⟨c, v, by simp [hcmem], by simp [hvmem], hc, hv, rfl⟩
  | @update w ds ks data keys hds _ hks =>
    rcases List.mem_append.1 hp with hp | hp
    · exact hequation hds hp fun t ht => by simp [ht]
    · exact hequation hks hp fun t ht => by simp [ht]
  | delete hks => exact hequation hks hp (List.Subset.refl ts)

/-! ## Single tokens -/

theorem token_eq_ok_iff {expected : Expected} {fits : Token → Bool} {ts rest : List Token}
    {t : Token} : token expected fits ts = .ok (t, rest) ↔ ts = t :: rest ∧ fits t = true := by
  cases ts with
  | nil => exact ⟨nofun, nofun⟩
  | cons u us =>
    rw [token]
    split
    · next hu =>
      constructor
      · intro h
        cases h
        exact ⟨rfl, hu⟩
      · rintro ⟨h, -⟩
        cases h
        rfl
    · next hu =>
      constructor
      · exact nofun
      · rintro ⟨h, ht⟩
        cases h
        exact absurd ht hu

theorem token_bind_eq_ok_iff {β : Type} {expected : Expected} {fits : Token → Bool}
    {ts : List Token} {f : Token × List Token → Except Error β} {b : β} :
    token expected fits ts >>= f = .ok b ↔
      ∃ t rest, ts = t :: rest ∧ fits t = true ∧ f (t, rest) = .ok b := by
  rw [bind_eq_ok_iff]
  constructor
  · rintro ⟨⟨t, rest⟩, ht, hf⟩
    obtain ⟨hts, hfits⟩ := token_eq_ok_iff.1 ht
    exact ⟨t, rest, hts, hfits, hf⟩
  · rintro ⟨t, rest, hts, hfits, hf⟩
    exact ⟨(t, rest), token_eq_ok_iff.2 ⟨hts, hfits⟩, hf⟩

theorem atEnd_eq_ok_iff {ts : List Token} {u : Unit} : atEnd ts = .ok u ↔ ts = [] := by
  cases ts with
  | nil => exact ⟨fun _ => rfl, fun _ => rfl⟩
  | cons t ts => exact ⟨nofun, nofun⟩

/-! ## Lists of an insert -/

/-- A list of columns takes its columns and the parenthesis behind them. -/
theorem columnList_eq_ok_iff {ts rest : List Token} {columns : List Text} :
    columnList ts = .ok (columns, rest) ↔
      ∃ cs c, ts = cs ++ c :: rest ∧ SepBy Column (·.isSymbol [',']) cs columns ∧
        c.isSymbol [')'] = true := by
  constructor
  · intro h
    -- only two cases give a result: the last column with its parenthesis, and one with a comma
    fun_induction columnList ts generalizing columns with
    | case1 => cases h
    | case2 c hc => cases h
    | case3 c hc => cases h
    | case4 c t ts hc ht =>
      cases h
      exact ⟨[c], t, rfl, .single (.mk hc), ht⟩
    | case5 c t ts hc ht hcomma ih =>
      obtain ⟨⟨columns', rest'⟩, hlist, he⟩ := map_eq_ok_iff.1 h
      cases he
      obtain ⟨cs, close, rfl, hcs, hclose⟩ := ih hlist
      exact ⟨[c] ++ t :: cs, close, by simp, .cons (.mk hc) hcomma hcs, hclose⟩
    | case6 c t ts hc ht hcomma => cases h
    | case7 c t ts hc => cases h
  · rintro ⟨cs, c, rfl, hcs, hc⟩
    induction hcs with
    | single hitem =>
      cases hitem with
      | mk ht => simp [columnList, ht, hc]
    | @cons _ _ sep us as hitem hsep _ ih =>
      cases hitem with
      | mk ht =>
        have hno := Token.isSymbol_eq_false_of_ne hsep [')'] (by decide)
        rw [List.append_assoc, List.singleton_append, List.cons_append, columnList, if_pos ht,
          if_neg (by simp [hno]), if_pos hsep, ih]
        rfl

/-- A list of `n + 1` values takes its values and the parenthesis behind them. -/
theorem valueList_eq_ok_iff {n : Nat} {ts rest : List Token} {values : List Text} :
    valueList (n + 1) ts = .ok (values, rest) ↔
      values.length = n + 1 ∧ ∃ vs c, ts = vs ++ c :: rest ∧
        SepBy Value (·.isSymbol [',']) vs values ∧ c.isSymbol [')'] = true := by
  -- the last value is closed by a parenthesis, and each one before it by a comma
  induction n generalizing ts values with
  | zero =>
    simp only [valueList, value, closeParen, if_true]
    constructor
    · intro h
      obtain ⟨v, ts₁, rfl, hv, h₁⟩ := token_bind_eq_ok_iff.1 h
      obtain ⟨c, ts₂, rfl, hc, hresult⟩ := token_bind_eq_ok_iff.1 h₁
      cases hresult
      exact ⟨rfl, [v], c, rfl, .single (.mk hv), hc⟩
    · rintro ⟨hlen, vs, c, rfl, hvs, hc⟩
      cases hvs with
      | single hitem =>
        cases hitem with
        | mk hv =>
          refine token_bind_eq_ok_iff.2 ⟨_, _, rfl, hv, ?_⟩
          exact token_bind_eq_ok_iff.2 ⟨_, _, rfl, hc, rfl⟩
      | cons _ _ hvs =>
        exact absurd (List.length_eq_zero_iff.1 (Nat.succ.inj hlen)) hvs.ne_nil
  | succ n ih =>
    rw [valueList]
    simp only [value, comma, Nat.succ_ne_zero, if_false]
    constructor
    · intro h
      obtain ⟨v, ts₁, rfl, hv, h₁⟩ := token_bind_eq_ok_iff.1 h
      obtain ⟨c, ts₂, rfl, hc, h₂⟩ := token_bind_eq_ok_iff.1 h₁
      obtain ⟨⟨values', ts₃⟩, hlist, hresult⟩ := bind_eq_ok_iff.1 h₂
      cases hresult
      obtain ⟨hlen, vs, close, rfl, hvs, hclose⟩ := ih.1 hlist
      exact ⟨congrArg Nat.succ hlen, [v] ++ c :: vs, close, by simp, .cons (.mk hv) hc hvs, hclose⟩
    · rintro ⟨hlen, vs, c, rfl, hvs, hc⟩
      cases hvs with
      | single _ => cases hlen
      | @cons _ _ sep us as hitem hsep hus =>
        cases hitem with
        | mk hv =>
          have hlist := ih.2 ⟨Nat.succ.inj hlen, us, c, rfl, hus, hc⟩
          refine token_bind_eq_ok_iff.2 ⟨_, _, rfl, hv, ?_⟩
          refine token_bind_eq_ok_iff.2 ⟨_, _, rfl, hsep, ?_⟩
          exact bind_eq_ok_iff.2 ⟨_, hlist, rfl⟩

/-! ## Lists of equations -/

theorem pair_eq_ok_iff {ts rest : List Token} {p : Pair} :
    pair ts = .ok (p, rest) ↔ ∃ us, ts = us ++ rest ∧ Equation us p := by
  simp only [pair, column, equals, value]
  constructor
  · intro h
    obtain ⟨c, ts₁, rfl, hc, h₁⟩ := token_bind_eq_ok_iff.1 h
    obtain ⟨e, ts₂, rfl, he, h₂⟩ := token_bind_eq_ok_iff.1 h₁
    obtain ⟨v, ts₃, rfl, hv, hresult⟩ := token_bind_eq_ok_iff.1 h₂
    cases hresult
    exact ⟨[c, e, v], rfl, .mk hc he hv⟩
  · rintro ⟨us, rfl, hus⟩
    cases hus with
    | mk hc he hv =>
      refine token_bind_eq_ok_iff.2 ⟨_, _, rfl, hc, ?_⟩
      refine token_bind_eq_ok_iff.2 ⟨_, _, rfl, he, ?_⟩
      exact token_bind_eq_ok_iff.2 ⟨_, _, rfl, hv, rfl⟩

/-- An equation is read whatever follows it. -/
theorem pair_append {us : List Token} {p : Pair} (h : Equation us p) (rest : List Token) :
    pair (us ++ rest) = .ok (p, rest) :=
  pair_eq_ok_iff.2 ⟨us, rfl, h⟩

/-- The equations to set take the word `where` behind them. -/
theorem assignments_eq_ok_iff {ts rest : List Token} {ps : List Pair} :
    assignments ts = .ok (ps, rest) ↔
      ∃ ds w, ts = ds ++ w :: rest ∧ SepBy Equation (·.isSymbol [',']) ds ps ∧
        w.isKeyword "where".toList = true := by
  constructor
  · intro h
    fun_induction assignments ts generalizing ps with
    | case1 ts e hp => cases h
    | case2 ts p hp => cases h
    | case3 ts p t rest' hp hw =>
      cases h
      obtain ⟨us, rfl, hus⟩ := pair_eq_ok_iff.1 hp
      exact ⟨us, t, rfl, .single hus, hw⟩
    | case4 ts p t rest' hp hw hcomma ih =>
      obtain ⟨⟨ps', rest''⟩, hlist, he⟩ := map_eq_ok_iff.1 h
      cases he
      obtain ⟨us, rfl, hus⟩ := pair_eq_ok_iff.1 hp
      obtain ⟨ds, w, rfl, hds, hw'⟩ := ih hlist
      exact ⟨us ++ t :: ds, w, by simp, .cons hus hcomma hds, hw'⟩
    | case5 ts p t rest' hp hw hcomma => cases h
  · rintro ⟨ds, w, rfl, hds, hw⟩
    induction hds with
    | @single us p hitem =>
      rw [assignments, pair_append hitem]
      simp only [hw, if_true]
    | @cons us p sep ds ps hitem hsep _ ih =>
      -- the word is asked for before the comma, and a comma is no word
      have hno := Token.isKeyword_eq_false_of_isSymbol hsep "where".toList
      rw [List.append_assoc, assignments, pair_append hitem]
      simp only [List.cons_append, hno, hsep, ih, Except.map, if_true, Bool.false_eq_true, if_false]

/-- The equations to meet take all tokens. -/
theorem predicate_eq_ok_iff {ts : List Token} {ps : List Pair} :
    predicate ts = .ok ps ↔ SepBy Equation (·.isKeyword "and".toList) ts ps := by
  constructor
  · intro h
    fun_induction predicate ts generalizing ps with
    | case1 ts e hp => cases h
    | case2 ts p hp =>
      cases h
      obtain ⟨us, rfl, hus⟩ := pair_eq_ok_iff.1 hp
      rw [List.append_nil]
      exact .single hus
    | case3 ts p t rest hp hand ih =>
      obtain ⟨ps', hlist, rfl⟩ := map_eq_ok_iff.1 h
      obtain ⟨us, rfl, hus⟩ := pair_eq_ok_iff.1 hp
      exact .cons hus hand (ih hlist)
    | case4 ts p t rest hp hand => cases h
  · intro h
    induction h with
    | @single us p hitem =>
      rw [← List.append_nil us, predicate, pair_append hitem]
    | @cons us p sep ds ps hitem hsep _ ih =>
      rw [predicate, pair_append hitem]
      simp only [hsep, ih, Except.map, if_true]

/-! ## Sentences -/

theorem insertion_eq_ok_iff {ts : List Token} {ps : List Pair} :
    insertion ts = .ok ps ↔ Sentence .insert ts ⟨ps, []⟩ := by
  simp only [insertion, openParen, valuesWord]
  constructor
  · intro h
    obtain ⟨o, ts₁, rfl, ho, h₁⟩ := token_bind_eq_ok_iff.1 h
    obtain ⟨⟨columns, ts₂⟩, hcolumns, h₂⟩ := bind_eq_ok_iff.1 h₁
    obtain ⟨cs, c, rfl, hcs, hc⟩ := columnList_eq_ok_iff.1 hcolumns
    obtain ⟨w, ts₃, rfl, hw, h₃⟩ := token_bind_eq_ok_iff.1 h₂
    obtain ⟨o', ts₄, rfl, ho', h₄⟩ := token_bind_eq_ok_iff.1 h₃
    obtain ⟨⟨values, ts₅⟩, hvalues, h₅⟩ := bind_eq_ok_iff.1 h₄
    obtain ⟨⟨⟩, hend, hresult⟩ := bind_eq_ok_iff.1 h₅
    -- a list of columns is not empty, so the list of values ends in a parenthesis
    obtain ⟨n, hn⟩ := Nat.exists_eq_succ_of_ne_zero
      (mt List.length_eq_zero_iff.1 hcs.ne_nil)
    simp only [hn, Nat.succ_eq_add_one] at hvalues
    obtain ⟨hlen, vs, c', rfl, hvs, hc'⟩ := valueList_eq_ok_iff.1 hvalues
    obtain rfl := atEnd_eq_ok_iff.1 hend
    cases hresult
    exact .insert ho hcs hc hw ho' hvs hc' (hlen.trans hn.symm)
  · intro h
    cases h with
    | @insert o c w o' c' cs vs columns values ho hcs hc hw ho' hvs hc' hlen =>
      obtain ⟨n, hn⟩ := Nat.exists_eq_succ_of_ne_zero
        (mt List.length_eq_zero_iff.1 hcs.ne_nil)
      have hvalues : valueList columns.length (vs ++ [c']) = .ok (values, []) := by
        rw [hn]
        exact valueList_eq_ok_iff.2 ⟨hlen.trans hn, vs, c', rfl, hvs, hc'⟩
      refine token_bind_eq_ok_iff.2 ⟨_, _, rfl, ho, ?_⟩
      refine bind_eq_ok_iff.2 ⟨_, columnList_eq_ok_iff.2 ⟨cs, c, rfl, hcs, hc⟩, ?_⟩
      refine token_bind_eq_ok_iff.2 ⟨_, _, rfl, hw, ?_⟩
      refine token_bind_eq_ok_iff.2 ⟨_, _, rfl, ho', ?_⟩
      exact bind_eq_ok_iff.2 ⟨_, hvalues, rfl⟩

/-- **The tokens that are read are the sentences**, and their pairs are those of the sentence. -/
theorem pairs_eq_ok_iff {op : Operation} {ts : List Token} {ps : Pairs} :
    pairs op ts = .ok ps ↔ Sentence op ts ps := by
  cases op with
  | insert =>
    constructor
    · intro h
      obtain ⟨data, hdata, hresult⟩ := bind_eq_ok_iff.1 h
      cases hresult
      exact insertion_eq_ok_iff.1 hdata
    · intro h
      obtain ⟨data, keys⟩ := ps
      obtain rfl : keys = [] := by
        cases h
        rfl
      exact bind_eq_ok_iff.2 ⟨data, insertion_eq_ok_iff.2 h, rfl⟩
  | update =>
    constructor
    · intro h
      obtain ⟨⟨data, rest⟩, hdata, hbehind⟩ := bind_eq_ok_iff.1 h
      obtain ⟨keys, hkeys, hresult⟩ := bind_eq_ok_iff.1 hbehind
      cases hresult
      obtain ⟨ds, w, rfl, hds, hw⟩ := assignments_eq_ok_iff.1 hdata
      exact .update hds hw (predicate_eq_ok_iff.1 hkeys)
    · intro h
      cases h with
      | @update w ds ks data keys hds hw hks =>
        refine bind_eq_ok_iff.2 ⟨_, assignments_eq_ok_iff.2 ⟨ds, w, rfl, hds, hw⟩, ?_⟩
        exact bind_eq_ok_iff.2 ⟨keys, predicate_eq_ok_iff.2 hks, rfl⟩
  | delete =>
    constructor
    · intro h
      obtain ⟨keys, hkeys, hresult⟩ := bind_eq_ok_iff.1 h
      cases hresult
      exact .delete (predicate_eq_ok_iff.1 hkeys)
    · intro h
      cases h with
      | delete hks => exact bind_eq_ok_iff.2 ⟨_, predicate_eq_ok_iff.2 hks, rfl⟩

end Fragment

end SqlText
