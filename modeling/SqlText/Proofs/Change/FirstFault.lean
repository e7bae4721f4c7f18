import SqlText.Proofs.Change.Reading

/-!
# The first token that does not fit

The grammar of fragments is read token by token, without a step back. So a refusal should say where
the fragment stops being one: at the end, if more tokens could still make a sentence of it, or else
at the first token that no sentence goes on with. A reader with this property is called prompt. It
would be late if it took a token that leads nowhere, and early if it refused one that a sentence
goes on with.

Promptness is kept by putting readers together: one behind the other (`PromptAt.bind`), with another
result (`PromptAt.map`), and again and again (`prompt_rounds`). The reader in front has to leave
what stands behind its part as it is (`TakesFront`), and the reader behind it has to be able to
start.

## Main statements

* `PromptAt.bind`: a prompt reader before a prompt reader.
* `prompt_rounds`: a reader that reads an item and then, behind it, itself.
* `prompt_pairs`: the reader of each operation's grammar is prompt.
* `read_refuses_first_fault`: what a fragment is refused for.
-/

namespace SqlText

namespace Fragment

variable {α β γ : Type}

/-! ## Prompt readers -/

/-- Whether some tokens can go on so that they are read. -/
def Continues (f : List Token → Except Error α) (ts : List Token) : Prop :=
  ∃ more a, f (ts ++ more) = .ok a

/--
Whether a reader, if it refuses these tokens, does so at the first fault: at the end only where more
tokens can be read, and at a token only if the tokens before it can go on, but not with it.
-/
structure PromptAt (f : List Token → Except Error α) (ts : List Token) : Prop where
  atEnd : ∀ {expected : Expected}, f ts = .error (.unexpectedEnd expected) → Continues f ts
  atToken : ∀ {expected : Expected} {found : Text},
    f ts = .error (.unexpectedToken expected found) →
      ∃ before t behind, ts = before ++ t :: behind ∧ found = t.text ∧ Continues f before ∧
        ¬Continues f (before ++ [t])

/-- Whether a reader can start, and refuses at the first fault. -/
structure Prompt (f : List Token → Except Error α) : Prop where
  starts : Continues f []
  promptAt : ∀ ts, PromptAt f ts

/-- Whether a reader takes its part off the front, whatever stands behind it. -/
def TakesFront (f : List Token → Except Error (α × List Token)) : Prop :=
  ∀ ⦃ts : List Token⦄ ⦃a : α⦄ ⦃rest : List Token⦄, f ts = .ok (a, rest) →
    ∃ us, ts = us ++ rest ∧ ∀ rest', f (us ++ rest') = .ok (a, rest')

section

variable {f : List Token → Except Error α} {ts : List Token}

theorem promptAt_of_ok {a : α} (h : f ts = .ok a) : PromptAt f ts where
  atEnd he := by
    rw [h] at he
    cases he
  atToken he := by
    rw [h] at he
    cases he

/-- A reader that can start and refuses a token is prompt at it. -/
theorem promptAt_of_refused (hstart : Continues f []) {t : Token} {expected : Expected}
    (h : ∀ us, f (t :: us) = .error (unexpected expected t)) : PromptAt f (t :: ts) where
  atEnd he := by
    rw [h] at he
    cases he
  atToken he := by
    rw [h] at he
    cases he
    refine ⟨[], t, ts, rfl, rfl, hstart, ?_⟩
    rintro ⟨more, a, hread⟩
    rw [List.nil_append, List.singleton_append, h] at hread
    cases hread

/-- A reader that takes a token is as prompt as what it does behind it. -/
theorem PromptAt.cons {t : Token} (h : PromptAt (fun us => f (t :: us)) ts) :
    PromptAt f (t :: ts) where
  atEnd he := h.atEnd he
  atToken he := by
    obtain ⟨before, u, behind, hts, hfound, hgo, hstop⟩ := h.atToken he
    exact ⟨t :: before, u, behind, congrArg (t :: ·) hts, hfound, hgo, hstop⟩

theorem continues_map_iff {g : α → β} : Continues (fun us => (f us).map g) ts ↔ Continues f ts := by
  constructor
  · rintro ⟨more, hread⟩
    exact ⟨more, exists_map_ok_iff.1 hread⟩
  · rintro ⟨more, hread⟩
    exact ⟨more, exists_map_ok_iff.2 hread⟩

theorem PromptAt.map (h : PromptAt f ts) (g : α → β) : PromptAt (fun us => (f us).map g) ts where
  atEnd he := continues_map_iff.2 (h.atEnd (map_eq_error_iff.1 he))
  atToken he := by
    obtain ⟨before, t, behind, hts, hfound, hgo, hstop⟩ := h.atToken (map_eq_error_iff.1 he)
    exact ⟨before, t, behind, hts, hfound, continues_map_iff.2 hgo, mt continues_map_iff.1 hstop⟩

theorem Prompt.map (h : Prompt f) (g : α → β) : Prompt fun us => (f us).map g :=
  ⟨continues_map_iff.2 h.starts, fun ts => (h.promptAt ts).map g⟩

end

/-! ## One reader behind the other -/

section

variable {f : List Token → Except Error (α × List Token)} {g : α × List Token → Except Error β}

/-- Behind a whole part the tokens go on as the second reader says. -/
theorem continues_bind_iff {part : List Token} {a : α}
    (hpart : ∀ rest, f (part ++ rest) = .ok (a, rest)) (us : List Token) :
    Continues (fun ts => f ts >>= g) (part ++ us) ↔ Continues (fun ts => g (a, ts)) us := by
  have hread : ∀ more, (f (part ++ us ++ more) >>= g) = g (a, us ++ more) := by
    intro more
    rw [List.append_assoc, bind_of_ok (hpart _)]
  constructor
  · rintro ⟨more, b, h⟩
    exact ⟨more, b, (hread more).symm.trans h⟩
  · rintro ⟨more, b, h⟩
    exact ⟨more, b, (hread more).trans h⟩

variable (hf : TakesFront f)

include hf

/-- Tokens that are not yet a whole part, but can become one, are completed to one. -/
theorem TakesFront.exists_part {ts : List Token} (hgo : Continues f ts)
    (hstuck : ∃ more, ∀ r, f (ts ++ more) ≠ .ok r) :
    ∃ us a, ∀ rest, f (ts ++ us ++ rest) = .ok (a, rest) := by
  obtain ⟨more, ⟨a, rest⟩, hread⟩ := hgo
  obtain ⟨part, hpart, hfront⟩ := hf hread
  rcases List.append_eq_append_iff.1 hpart with ⟨us, rfl, -⟩ | ⟨us, rfl, -⟩
  · exact ⟨us, a, hfront⟩
  · -- the part would lie inside the tokens, and then nothing behind them is refused
    obtain ⟨more', hrefuse⟩ := hstuck
    rw [List.append_assoc] at hrefuse
    exact absurd (hfront _) (hrefuse _)

/-- What the first reader can go on with, both can. -/
theorem TakesFront.continues_bind {ts : List Token} (hgo : Continues f ts)
    (hstuck : ∃ more, ∀ r, f (ts ++ more) ≠ .ok r)
    (hstart : ∀ a, Continues (fun us => g (a, us)) []) :
    Continues (fun us => f us >>= g) ts := by
  obtain ⟨us, a, hpart⟩ := hf.exists_part hgo hstuck
  obtain ⟨more, b, hread⟩ := (continues_bind_iff hpart []).2 (hstart a)
  exact ⟨us ++ ([] ++ more), b, by simpa using hread⟩

/-- Two readers can start if each of them can. -/
theorem TakesFront.continues_bind_nil (hgo : Continues f [])
    (hstart : ∀ a, Continues (fun us => g (a, us)) []) : Continues (fun us => f us >>= g) [] := by
  obtain ⟨more, ⟨a, rest⟩, hread⟩ := hgo
  obtain ⟨part, -, hpart⟩ := hf hread
  obtain ⟨more', b, hboth⟩ := (continues_bind_iff hpart []).2 (hstart a)
  exact ⟨part ++ [] ++ more', b, hboth⟩

/-- **A prompt reader before a prompt reader is prompt.** -/
theorem PromptAt.bind {ts : List Token} (hfirst : PromptAt f ts)
    (hsecond : ∀ a rest, f ts = .ok (a, rest) → PromptAt (fun us => g (a, us)) rest)
    (hstart : ∀ a, Continues (fun us => g (a, us)) []) : PromptAt (fun us => f us >>= g) ts where
  atEnd he := by
    rcases bind_eq_error_iff.1 he with herror | ⟨⟨a, rest⟩, hread, herror⟩
    · refine hf.continues_bind (hfirst.atEnd herror) ⟨[], fun r hr => ?_⟩ hstart
      rw [List.append_nil, herror] at hr
      cases hr
    · obtain ⟨part, rfl, hpart⟩ := hf hread
      exact (continues_bind_iff hpart rest).2 ((hsecond a rest hread).atEnd herror)
  atToken he := by
    rcases bind_eq_error_iff.1 he with herror | ⟨⟨a, rest⟩, hread, herror⟩
    · obtain ⟨before, t, behind, hts, hfound, hgo, hstop⟩ := hfirst.atToken herror
      refine ⟨before, t, behind, hts, hfound, ?_, ?_⟩
      · refine hf.continues_bind hgo ⟨[t], fun r hr => hstop ⟨[], r, ?_⟩⟩ hstart
        rwa [List.append_nil]
      · rintro ⟨more, b, hboth⟩
        obtain ⟨r, hr, -⟩ := bind_eq_ok_iff.1 hboth
        exact hstop ⟨more, r, hr⟩
    · obtain ⟨part, rfl, hpart⟩ := hf hread
      obtain ⟨before, t, behind, rfl, hfound, hgo, hstop⟩ := (hsecond a rest hread).atToken herror
      refine ⟨part ++ before, t, behind, (List.append_assoc ..).symm, hfound, ?_, ?_⟩
      · exact (continues_bind_iff hpart before).2 hgo
      · rw [List.append_assoc]
        exact mt (continues_bind_iff hpart _).1 hstop

theorem Prompt.bind (hfirst : Prompt f) (hsecond : ∀ a, Prompt fun us => g (a, us)) :
    Prompt fun us => f us >>= g where
  starts := hf.continues_bind_nil hfirst.starts fun a => (hsecond a).starts
  promptAt ts := (hfirst.promptAt ts).bind hf (fun a rest _ => (hsecond a).promptAt rest)
    fun a => (hsecond a).starts

end

/--
**A reader in rounds is prompt if its items are.** Each round takes an item, and what stands behind
it is read promptly if fewer tokens are. The induction is on the tokens left.
-/
theorem prompt_rounds {f : List Token → Except Error β}
    {item : List Token → Except Error (α × List Token)} (behind : α → List Token → Except Error β)
    (hf : ∀ ts, f ts = item ts >>= fun a => behind a.1 a.2)
    (hfront : TakesFront item) (hitem : Prompt item) (hstart : ∀ a, Continues (behind a) [])
    (hbehind : ∀ a ts, (∀ rest, rest.length < ts.length → PromptAt f rest) →
      PromptAt (behind a) ts) : Prompt f := by
  have hfun : f = fun ts => item ts >>= fun a => behind a.1 a.2 := funext hf
  refine ⟨?_, fun ts => ?_⟩
  · rw [hfun]
    exact hfront.continues_bind_nil hitem.starts hstart
  induction hn : ts.length using Nat.strongRecOn generalizing ts with
  | ind n ih =>
    rw [hfun]
    refine (hitem.promptAt ts).bind hfront (fun a rest hread => ?_) hstart
    obtain ⟨part, hts, -⟩ := hfront hread
    refine hbehind a rest fun rest' hlt => ih rest'.length ?_ rest' rfl
    rw [← hn, hts, List.length_append]
    omega

/-! ## Single tokens -/

theorem token_bind_cons {g : Token × List Token → Except Error α} (expected : Expected)
    (fits : Token → Bool) (t : Token) (ts : List Token) :
    token expected fits (t :: ts) >>= g
      = if fits t then g (t, ts) else .error (unexpected expected t) := by
  rw [token]
  split
  · rfl
  · rfl

theorem takesFront_token (expected : Expected) (fits : Token → Bool) :
    TakesFront (token expected fits) := by
  intro ts t rest h
  obtain ⟨rfl, ht⟩ := token_eq_ok_iff.1 h
  exact ⟨[t], rfl, fun rest' => token_eq_ok_iff.2 ⟨rfl, ht⟩⟩

theorem prompt_token (expected : Expected) {fits : Token → Bool} (hfits : ∃ t, fits t = true) :
    Prompt (token expected fits) := by
  have hstart : Continues (token expected fits) [] := by
    obtain ⟨t, ht⟩ := hfits
    exact ⟨[t], (t, []), token_eq_ok_iff.2 ⟨rfl, ht⟩⟩
  refine ⟨hstart, fun ts => ?_⟩
  cases ts with
  | nil => exact ⟨fun _ => hstart, nofun⟩
  | cons t ts =>
    by_cases ht : fits t = true
    · exact promptAt_of_ok (token_eq_ok_iff.2 ⟨rfl, ht⟩)
    · exact promptAt_of_refused hstart fun us => if_neg ht

/-- Every mark of the grammar is a token. -/
theorem exists_isSymbol (s : Text) : ∃ t : Token, t.isSymbol s = true :=
  ⟨⟨.symbol, s, 0, Text.byteSize s, none⟩, by simp [Token.isSymbol]⟩

theorem exists_isKeyword (w : Text) : ∃ t : Token, t.isKeyword w = true :=
  ⟨⟨.identifier, w, 0, Text.byteSize w, none⟩, by simp [Token.isKeyword, Text.sameWord]⟩

theorem prompt_column : Prompt column :=
  prompt_token .columnName ⟨⟨.identifier, ['x'], 0, 1, none⟩, rfl⟩

theorem prompt_value : Prompt value :=
  prompt_token .literalValue ⟨⟨.identifier, ['x'], 0, 1, none⟩, rfl⟩

theorem prompt_atEnd : Prompt atEnd := by
  have hstart : Continues atEnd [] := ⟨[], (), rfl⟩
  refine ⟨hstart, fun ts => ?_⟩
  cases ts with
  | nil => exact promptAt_of_ok rfl
  | cons t ts => exact promptAt_of_refused hstart fun us => rfl

/-! ## Lists -/

/--
Reads what stands behind an item of a list: the mark that closes the list, or a separator and the
further items.
-/
def behindItem (f : List Token → Except Error (List α × List Token)) (expected : Expected)
    (isClose isSep : Token → Bool) (a : α) : List Token → Except Error (List α × List Token)
  | [] => .error (.unexpectedEnd expected)
  | t :: ts =>
    if isClose t then .ok ([a], ts)
    else if isSep t then (f ts).map fun r => (a :: r.1, r.2)
    else .error (unexpected expected t)

section

variable {f : List Token → Except Error (List β × List Token)} {expected : Expected}
  {isClose isSep : Token → Bool} (hclose : ∃ t, isClose t = true)

include hclose

theorem continues_behindItem (b : β) : Continues (behindItem f expected isClose isSep b) [] := by
  obtain ⟨t, ht⟩ := hclose
  exact ⟨[t], ([b], []), if_pos ht⟩

/-- Behind an item a list is read promptly, if it is behind the mark there. -/
theorem promptAt_behindItem (b : β) {ts : List Token}
    (hrest : ∀ rest, rest.length < ts.length → PromptAt f rest) :
    PromptAt (behindItem f expected isClose isSep b) ts := by
  have hstart : Continues (behindItem f expected isClose isSep b) [] :=
    continues_behindItem hclose b
  cases ts with
  | nil => exact ⟨fun _ => hstart, nofun⟩
  | cons t ts =>
    by_cases hc : isClose t = true
    · exact promptAt_of_ok (if_pos hc)
    · by_cases hs : isSep t = true
      · refine PromptAt.cons ?_
        simp only [behindItem, if_neg hc, if_pos hs]
        exact (hrest ts (Nat.lt_succ_self _)).map _
      · exact promptAt_of_refused hstart fun us => by rw [behindItem, if_neg hc, if_neg hs]

/-- **A list is read promptly if its items are.** -/
theorem prompt_list {item : List Token → Except Error (α × List Token)} (value : α → β)
    (hf : ∀ ts, f ts = item ts >>= fun a => behindItem f expected isClose isSep (value a.1) a.2)
    (hfront : TakesFront item) (hitem : Prompt item) : Prompt f :=
  prompt_rounds (fun a => behindItem f expected isClose isSep (value a)) hf hfront hitem
    (fun a => continues_behindItem hclose (value a))
    fun a _ hrest => promptAt_behindItem hclose (value a) hrest

end

/-! ## Lists of an insert -/

theorem columnList_eq (ts : List Token) :
    columnList ts = column ts >>= fun c =>
      behindItem columnList .commaOrCloseParen (·.isSymbol [')']) (·.isSymbol [','])
        c.1.text c.2 := by
  fun_cases columnList ts with
  | case1 => rfl
  | case2 c hc => rw [column, token_bind_cons, if_pos hc, behindItem]
  | case3 c hc => rw [column, token_bind_cons, if_neg hc]
  | case4 c t ts hc ht => rw [column, token_bind_cons, if_pos hc, behindItem, if_pos ht]
  | case5 c t ts hc ht hcomma =>
    rw [column, token_bind_cons, if_pos hc, behindItem, if_neg ht, if_pos hcomma]
  | case6 c t ts hc ht hcomma =>
    rw [column, token_bind_cons, if_pos hc, behindItem, if_neg ht, if_neg hcomma]
  | case7 c t ts hc => rw [column, token_bind_cons, if_neg hc]

theorem takesFront_columnList : TakesFront columnList := by
  intro ts columns rest h
  obtain ⟨cs, c, rfl, hcs, hc⟩ := columnList_eq_ok_iff.1 h
  refine ⟨cs ++ [c], by simp, fun rest' => columnList_eq_ok_iff.2 ⟨cs, c, by simp, hcs, hc⟩⟩

theorem prompt_columnList : Prompt columnList :=
  prompt_list (exists_isSymbol [')']) Token.text columnList_eq (takesFront_token _ _) prompt_column

theorem takesFront_valueList (n : Nat) : TakesFront (valueList n) := by
  intro ts values rest h
  cases n with
  | zero =>
    cases h
    exact ⟨[], rfl, fun rest' => rfl⟩
  | succ n =>
    obtain ⟨hlen, vs, c, rfl, hvs, hc⟩ := valueList_eq_ok_iff.1 h
    refine ⟨vs ++ [c], by simp, fun rest' => ?_⟩
    exact valueList_eq_ok_iff.2 ⟨hlen, vs, c, by simp, hvs, hc⟩

/-- The last value is closed by a parenthesis, and each one before it by a comma. -/
theorem valueList_succ (n : Nat) (ts : List Token) :
    valueList (n + 1) ts = value ts >>= fun v =>
      (if n = 0 then closeParen v.2 else comma v.2) >>= fun m =>
        valueList n m.2 >>= fun r => pure (v.1.text :: r.1, r.2) := by
  rw [valueList]
  refine congrArg (value ts >>= ·) (funext fun v => ?_)
  by_cases hn : n = 0
  · simp only [if_pos hn]
  · simp only [if_neg hn]

/-- **So many values are read promptly**: a list of fewer or more is refused at a mark. -/
theorem prompt_valueList (n : Nat) : Prompt (valueList n) := by
  induction n with
  | zero => exact ⟨⟨[], _, rfl⟩, fun ts => promptAt_of_ok rfl⟩
  | succ n ih =>
    have hmark : Prompt (fun ts => if n = 0 then closeParen ts else comma ts) ∧
        TakesFront fun ts => if n = 0 then closeParen ts else comma ts := by
      split
      · exact ⟨prompt_token .closeParen (exists_isSymbol [')']), takesFront_token _ _⟩
      · exact ⟨prompt_token .comma (exists_isSymbol [',']), takesFront_token _ _⟩
    rw [show valueList (n + 1) = _ from funext (valueList_succ n)]
    refine Prompt.bind (takesFront_token _ _) prompt_value fun v => ?_
    show Prompt fun us => (if n = 0 then closeParen us else comma us) >>= fun m =>
      valueList n m.2 >>= fun r => pure (v.text :: r.1, r.2)
    refine Prompt.bind hmark.2 hmark.1 fun m => ?_
    simp only [bind_pure_comp]
    exact ih.map _

/-- **The fragment of an insert is read promptly.** -/
theorem prompt_insertion : Prompt insertion := by
  have hopen : Prompt openParen := prompt_token .openParen (exists_isSymbol ['('])
  have hword : Prompt valuesWord := prompt_token .values (exists_isKeyword "values".toList)
  unfold insertion
  refine Prompt.bind (takesFront_token _ _) hopen fun o => ?_
  refine Prompt.bind takesFront_columnList prompt_columnList fun columns => ?_
  refine Prompt.bind (takesFront_token _ _) hword fun w => ?_
  refine Prompt.bind (takesFront_token _ _) hopen fun o' => ?_
  refine Prompt.bind (takesFront_valueList _) (prompt_valueList _) fun values => ?_
  simp only [bind_pure_comp]
  exact prompt_atEnd.map _

/-! ## Lists of equations -/

theorem takesFront_pair : TakesFront pair := by
  intro ts p rest h
  obtain ⟨us, rfl, hus⟩ := pair_eq_ok_iff.1 h
  exact ⟨us, rfl, pair_append hus⟩

theorem prompt_pair : Prompt pair := by
  have hequals : Prompt equals := prompt_token .equals (exists_isSymbol ['='])
  unfold pair
  refine Prompt.bind (takesFront_token _ _) prompt_column fun c => ?_
  refine Prompt.bind (takesFront_token _ _) hequals fun e => ?_
  simp only [bind_pure_comp]
  exact prompt_value.map _

theorem assignments_eq (ts : List Token) :
    assignments ts = pair ts >>= fun p =>
      behindItem assignments .commaOrWhere (·.isKeyword "where".toList) (·.isSymbol [','])
        p.1 p.2 := by
  fun_cases assignments ts with
  | case1 e hp =>
    rw [hp]
    rfl
  | case2 p hp => rw [bind_of_ok hp, behindItem]
  | case3 p t rest hp hw => rw [bind_of_ok hp, behindItem, if_pos hw]
  | case4 p t rest hp hw hcomma => rw [bind_of_ok hp, behindItem, if_neg hw, if_pos hcomma]
  | case5 p t rest hp hw hcomma => rw [bind_of_ok hp, behindItem, if_neg hw, if_neg hcomma]

theorem takesFront_assignments : TakesFront assignments := by
  intro ts ps rest h
  obtain ⟨ds, w, rfl, hds, hw⟩ := assignments_eq_ok_iff.1 h
  exact ⟨ds ++ [w], by simp, fun rest' => assignments_eq_ok_iff.2 ⟨ds, w, by simp, hds, hw⟩⟩

theorem prompt_assignments : Prompt assignments :=
  prompt_list (exists_isKeyword "where".toList) id assignments_eq takesFront_pair prompt_pair

/-- Reads what stands behind a pair of a predicate: the end, or the word `and` and further pairs. -/
def behindCondition (p : Pair) : List Token → Except Error (List Pair)
  | [] => .ok [p]
  | t :: ts =>
    if t.isKeyword "and".toList then (predicate ts).map (p :: ·)
    else .error (unexpected .andOrEnd t)

theorem predicate_eq (ts : List Token) :
    predicate ts = pair ts >>= fun p => behindCondition p.1 p.2 := by
  fun_cases predicate ts with
  | case1 e hp =>
    rw [hp]
    rfl
  | case2 p hp => rw [bind_of_ok hp, behindCondition]
  | case3 p t rest hp hand => rw [bind_of_ok hp, behindCondition, if_pos hand]
  | case4 p t rest hp hand => rw [bind_of_ok hp, behindCondition, if_neg hand]

theorem continues_behindCondition (p : Pair) : Continues (behindCondition p) [] := ⟨[], [p], rfl⟩

/-- Behind a pair a predicate is read promptly, if it is behind the word there. -/
theorem promptAt_behindCondition (p : Pair) {ts : List Token}
    (hrest : ∀ rest, rest.length < ts.length → PromptAt predicate rest) :
    PromptAt (behindCondition p) ts := by
  cases ts with
  | nil => exact promptAt_of_ok rfl
  | cons t ts =>
    by_cases hand : t.isKeyword "and".toList = true
    · refine PromptAt.cons ?_
      simp only [behindCondition, if_pos hand]
      exact (hrest ts (Nat.lt_succ_self _)).map _
    · exact promptAt_of_refused (continues_behindCondition p) fun us => if_neg hand

theorem prompt_predicate : Prompt predicate :=
  prompt_rounds behindCondition predicate_eq takesFront_pair prompt_pair continues_behindCondition
    fun p _ hrest => promptAt_behindCondition p hrest

/-- **The grammar of each operation is read promptly.** -/
theorem prompt_pairs (op : Operation) : Prompt (pairs op) := by
  cases op with
  | insert =>
    unfold pairs
    simp only [bind_pure_comp]
    exact prompt_insertion.map _
  | update =>
    unfold pairs
    refine Prompt.bind takesFront_assignments prompt_assignments fun data => ?_
    simp only [bind_pure_comp]
    exact prompt_predicate.map _
  | delete =>
    unfold pairs
    simp only [bind_pure_comp]
    exact prompt_predicate.map _

/-! ## Sentences that were begun -/

/-- Whether tokens are the beginning of a sentence, or all of it. -/
def IsBeginning (op : Operation) (ts : List Token) : Prop :=
  ∃ us ps, Sentence op us ps ∧ ts <+: us

theorem isBeginning_iff {op : Operation} {ts : List Token} :
    IsBeginning op ts ↔ Continues (pairs op) ts := by
  constructor
  · rintro ⟨us, ps, hps, more, rfl⟩
    exact ⟨more, ps, pairs_eq_ok_iff.2 hps⟩
  · rintro ⟨more, ps, hps⟩
    exact ⟨ts ++ more, ps, pairs_eq_ok_iff.1 hps, List.prefix_append ts more⟩

theorem read_of_pairs_eq_error {op : Operation} (splitKeys : Bool) {sql : Text} {e : Error}
    (h : pairs op (tokens sql) = .error e) : read op splitKeys sql = .error e := by
  rw [read, h]
  rfl

/-- **Tokens that are no sentence are refused at the end, if they begin one.** -/
theorem exists_unexpectedEnd {op : Operation} {ts : List Token} (hno : ∀ ps, ¬Sentence op ts ps)
    (hbegin : IsBeginning op ts) : ∃ expected, pairs op ts = .error (.unexpectedEnd expected) := by
  cases hread : pairs op ts with
  | ok ps => exact absurd (pairs_eq_ok_iff.1 hread) (hno ps)
  | error e =>
    cases isGrammar_of_pairs hread with
    | unexpectedEnd expected => exact ⟨expected, rfl⟩
    | unexpectedToken expected found =>
      -- the tokens up to the refused one would be the beginning of a sentence
      obtain ⟨before, t, behind, rfl, -, -, hstop⟩ := ((prompt_pairs op).promptAt ts).atToken hread
      obtain ⟨more, ps, hps⟩ := isBeginning_iff.1 hbegin
      exact absurd ⟨behind ++ more, ps, by simpa using hps⟩ hstop

/-- **Tokens that begin no sentence are refused at the first one that none goes on with.** -/
theorem exists_unexpectedToken {op : Operation} {ts : List Token} (hno : ¬IsBeginning op ts) :
    ∃ before t behind expected, ts = before ++ t :: behind ∧ IsBeginning op before ∧
      ¬IsBeginning op (before ++ [t]) ∧
      pairs op ts = .error (.unexpectedToken expected t.text) := by
  simp only [isBeginning_iff] at hno ⊢
  cases hread : pairs op ts with
  | ok ps => exact absurd ⟨[], ps, by rwa [List.append_nil]⟩ hno
  | error e =>
    cases isGrammar_of_pairs hread with
    | unexpectedEnd expected => exact absurd (((prompt_pairs op).promptAt ts).atEnd hread) hno
    | unexpectedToken expected found =>
      obtain ⟨before, t, behind, hts, rfl, hgo, hstop⟩ :=
        ((prompt_pairs op).promptAt ts).atToken hread
      exact ⟨before, t, behind, expected, hts, hgo, hstop, rfl⟩

/-! ## Columns that stand twice -/

/-- Names differ in two lists together if they do in each, and across the two. -/
theorem namesDiffer_append {ps qs : List Pair} :
    NamesDiffer (ps ++ qs) ↔ NamesDiffer ps ∧ NamesDiffer qs ∧
      ∀ p ∈ ps, ∀ q ∈ qs, Identifier.unquote p.1 ≠ Identifier.unquote q.1 := by
  rw [NamesDiffer, List.map_append, List.nodup_append]
  simp only [NamesDiffer, List.mem_map, forall_exists_index, and_imp, forall_apply_eq_imp_iff₂]

/-- **A sentence is read if its names differ**, across data and keys only where these are merged. -/
theorem exists_read_iff {op : Operation} {splitKeys : Bool} {sql : Text} {ps : Pairs}
    (h : Sentence op (tokens sql) ps) :
    (∃ c, read op splitKeys sql = .ok c) ↔
      NamesDiffer ps.data ∧ NamesDiffer ps.keys ∧
        (splitKeys = false → NamesDiffer (ps.data ++ ps.keys)) := by
  obtain ⟨⟨des, hdes⟩, kes, hkes⟩ := exists_reads_of_sentence h
  have hboth : List.Forall₂ Reads (ps.data ++ ps.keys) (des ++ kes) := List.rel_append hdes hkes
  have hunique : ∀ {ps' : Pairs}, Sentence op (tokens sql) ps' → ps' = ps := fun h' =>
    Except.ok.inj ((pairs_eq_ok_iff.2 h').symm.trans (pairs_eq_ok_iff.2 h))
  rw [namesDiffer_iff hboth, ← exists_toRow_iff hdes, ← exists_toRow_iff hkes]
  cases splitKeys with
  | true =>
    simp only [read_split_eq_ok_iff]
    constructor
    · rintro ⟨c, ps', ds, ks, hps', hds, hks, -⟩
      cases hunique hps'
      exact ⟨⟨ds, hds⟩, ⟨ks, hks⟩, nofun⟩
    · rintro ⟨⟨ds, hds⟩, ⟨ks, hks⟩, -⟩
      exact ⟨_, ps, ds, ks, h, hds, hks, rfl⟩
  | false =>
    simp only [read_merged_eq_ok_iff]
    constructor
    · rintro ⟨c, ps', ds, ks, m, hps', hds, hks, hm, -⟩
      cases hunique hps'
      refine ⟨⟨ds, hds⟩, ⟨ks, hks⟩, fun _ => ?_⟩
      rw [← (toRow_eq_ok_iff hdes).1 hds, ← (toRow_eq_ok_iff hkes).1 hks]
      exact Row.exists_addAll_iff.1 ⟨m, hm⟩
    · rintro ⟨⟨ds, hds⟩, ⟨ks, hks⟩, hnodup⟩
      rw [← (toRow_eq_ok_iff hdes).1 hds, ← (toRow_eq_ok_iff hkes).1 hks] at hnodup
      obtain ⟨m, hm⟩ := Row.exists_addAll_iff.2 (hnodup trivial)
      exact ⟨_, ps, ds, ks, m, h, hds, hks, hm, rfl⟩

/-- A sentence is refused for a column if and only if one stands twice where it must not. -/
theorem exists_duplicate_iff {op : Operation} {splitKeys : Bool} {sql : Text} {ps : Pairs}
    (h : Sentence op (tokens sql) ps) :
    (∃ c, read op splitKeys sql = .error (.duplicateColumn c)) ↔
      ¬NamesDiffer ps.data ∨ ¬NamesDiffer ps.keys ∨
        splitKeys = false ∧ ∃ p ∈ ps.data, ∃ q ∈ ps.keys,
          Identifier.unquote p.1 = Identifier.unquote q.1 := by
  have hrefused : (∃ c, read op splitKeys sql = .error (.duplicateColumn c)) ↔
      ¬∃ c, read op splitKeys sql = .ok c := by
    constructor
    · rintro ⟨c, hc⟩ ⟨content, hok⟩
      rw [hc] at hok
      cases hok
    · intro hno
      cases hread : read op splitKeys sql with
      | ok content => exact absurd ⟨content, hread⟩ hno
      | error e =>
        obtain ⟨c, rfl⟩ := exists_duplicate_of_read h hread
        exact ⟨c, rfl⟩
  rw [hrefused, exists_read_iff h, namesDiffer_append]
  grind

/-! ## The first fault -/

/--
**A fragment is refused for its first fault.** If its tokens are no sentence of the operation's
grammar, it is refused at the end where they begin one, and else at the first token that no
sentence goes on with, by the text of that token. If they are a sentence, it is refused at most for
a column that stands twice: among the data, among the keys, or, where the two are merged, across
them.
-/
theorem read_refuses_first_fault (op : Operation) (splitKeys : Bool) (sql : Text) :
    ((∀ ps, ¬Sentence op (tokens sql) ps) →
      (IsBeginning op (tokens sql) →
        ∃ expected, read op splitKeys sql = .error (.unexpectedEnd expected)) ∧
      (¬IsBeginning op (tokens sql) →
        ∃ before t behind expected, tokens sql = before ++ t :: behind ∧
          IsBeginning op before ∧ ¬IsBeginning op (before ++ [t]) ∧
          read op splitKeys sql = .error (.unexpectedToken expected t.text))) ∧
    ∀ ps, Sentence op (tokens sql) ps →
      (∀ e, read op splitKeys sql = .error e → ¬e.IsGrammar) ∧
      ((∃ c, read op splitKeys sql = .error (.duplicateColumn c)) ↔
        ¬NamesDiffer ps.data ∨ ¬NamesDiffer ps.keys ∨
          splitKeys = false ∧ ∃ p ∈ ps.data, ∃ q ∈ ps.keys,
            Identifier.unquote p.1 = Identifier.unquote q.1) := by
  refine ⟨fun hno => ⟨fun hbegin => ?_, fun hnot => ?_⟩, fun ps hps =>
    ⟨fun e he hgrammar => ?_, exists_duplicate_iff hps⟩⟩
  · obtain ⟨expected, hread⟩ := exists_unexpectedEnd hno hbegin
    exact ⟨expected, read_of_pairs_eq_error splitKeys hread⟩
  · obtain ⟨before, t, behind, expected, hts, hgo, hstop, hread⟩ := exists_unexpectedToken hnot
    exact ⟨before, t, behind, expected, hts, hgo, hstop, read_of_pairs_eq_error splitKeys hread⟩
  · obtain ⟨c, rfl⟩ := exists_duplicate_of_read hps he
    cases hgrammar

/-- A predicate that stops at a word, a value too few, and a column among data and keys. -/
theorem read_refuses_first_fault_each :
    let stopped := "id = 1 and".toList
    let short := "(a, b) values (1)".toList
    let twice := "a = 1 where A = 2".toList
    ((∀ ps, ¬Sentence .delete (tokens stopped) ps) ∧ IsBeginning .delete (tokens stopped) ∧
      ∃ expected, read .delete true stopped = .error (.unexpectedEnd expected)) ∧
    ((∀ ps, ¬Sentence .insert (tokens short) ps) ∧ ¬IsBeginning .insert (tokens short) ∧
      ∃ before t behind, tokens short = before ++ t :: behind ∧ t.text = [')'] ∧
        IsBeginning .insert before ∧ ¬IsBeginning .insert (before ++ [t]) ∧
        read .insert true short = .error (.unexpectedToken .comma t.text)) ∧
    ∃ ps, Sentence .update (tokens twice) ps ∧ NamesDiffer ps.data ∧ NamesDiffer ps.keys ∧
      ∃ c, read .update false twice = .error (.duplicateColumn c) := by
  intro stopped short twice
  have hstopped : pairs .delete (tokens stopped) = .error (.unexpectedEnd .columnName) := by
    decide +kernel
  have hgoes : pairs .delete (tokens stopped ++ tokens "x = 2".toList)
      = .ok ⟨[], [("id".toList, ['1']), (['x'], ['2'])]⟩ := by decide +kernel
  have hshort : pairs .insert (tokens short) = .error (.unexpectedToken .comma [')']) := by
    decide +kernel
  have htwice : pairs .update (tokens twice) = .ok ⟨[(['a'], ['1'])], [(['A'], ['2'])]⟩ := by
    decide +kernel
  have hno : ∀ {op : Operation} {ts : List Token} {e : Error}, pairs op ts = .error e →
      ∀ ps, ¬Sentence op ts ps := by
    intro op ts e he ps hps
    rw [pairs_eq_ok_iff.2 hps] at he
    cases he
  have hbegin : IsBeginning .delete (tokens stopped) := isBeginning_iff.2 ⟨_, _, hgoes⟩
  obtain ⟨hend, -⟩ := (read_refuses_first_fault .delete true stopped).1 (hno hstopped)
  obtain ⟨hend', htoken⟩ := (read_refuses_first_fault .insert true short).1 (hno hshort)
  have hread : read .insert true short = .error (.unexpectedToken .comma [')']) :=
    read_of_pairs_eq_error true hshort
  have hnot : ¬IsBeginning .insert (tokens short) := by
    intro hbegin'
    obtain ⟨expected, hread'⟩ := hend' hbegin'
    rw [hread] at hread'
    cases hread'
  obtain ⟨before, t, behind, expected, hts, hgo, hstop, hread'⟩ := htoken hnot
  have ht : t.text = [')'] :=
    (Error.unexpectedToken.inj (Except.error.inj (hread'.symm.trans hread))).2
  have hps := pairs_eq_ok_iff.1 htwice
  refine ⟨⟨hno hstopped, hbegin, hend hbegin⟩,
    ⟨hno hshort, hnot, before, t, behind, hts, ht, hgo, hstop, by rw [ht, hread]⟩, _, hps,
    List.nodup_singleton _, List.nodup_singleton _, ?_⟩
  refine ((read_refuses_first_fault .update false twice).2 _ hps).2.2 (Or.inr (Or.inr ⟨rfl, ?_⟩))
  exact ⟨_, List.mem_singleton_self _, _, List.mem_singleton_self _, by decide +kernel⟩

end Fragment

end SqlText
