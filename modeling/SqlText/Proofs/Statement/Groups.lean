import SqlText.Proofs.Token.Locality

/-!
# Statements as groups of tokens

What a splitter has to give is said here on the whole list of tokens, without a splitter: the tokens
are cut behind each semicolon up to which parentheses are balanced, the blanks before a group are
left out, and each group stands for a statement. The splitter reads from left to right, counts the
depth anew behind each cut and reads every statement a second time. It gives the same answers.

## Main statements

* `groupsAfter_of_cut`: the first group is what the splitter cuts off.
* `copiesFromInput_textOf`: reading a statement again finds the words of its own tokens.
* `next_answers`: a call gives the first answer and leaves the others.
* `answer_eq_getElem?`: so do all calls, also those behind the last answer.
-/

namespace SqlText

open Text Lexeme Statement

namespace Script

/-! ## Groups -/

/-- How many more parentheses some tokens open than close. -/
def depth (ts : List Token) : Int :=
  (ts.countP (·.isSymbol ['(']) : Int) - ts.countP (·.isSymbol [')'])

/--
Cuts tokens behind every semicolon up to which parentheses are balanced, those of the tokens
`before` counted too. The last group is what stands behind the last cut, and may be empty.
-/
def groupsAfter (before : List Token) : List Token → List (List Token)
  | [] => [[]]
  | t :: ts =>
    if t.isSymbol [';'] ∧ depth (before ++ [t]) = 0 then [t] :: groupsAfter (before ++ [t]) ts
    else (groupsAfter (before ++ [t]) ts).modifyHead (t :: ·)

/-- Cuts tokens behind every semicolon up to which parentheses are balanced. -/
def groups (ts : List Token) : List (List Token) := groupsAfter [] ts

/-- The groups without the blanks that lead them. A group of blanks alone is no statement. -/
def statements (ts : List Token) : List (List Token) :=
  ((groups ts).map (·.dropWhile Token.isBlank)).filter (!·.isEmpty)

/-! ## Answers -/

/-- Whether tokens, blanks left out, start with `copy` and have `from stdin` later. -/
def CopiesFromInput (g : List Token) : Prop :=
  ∃ c before a b behind, g.filter (fun t => !t.isBlank) = c :: (before ++ a :: b :: behind) ∧
    c.isKeyword "copy".toList = true ∧ a.isKeyword "from".toList = true ∧
    b.isKeyword "stdin".toList = true

/-- Whether tokens without blanks start with `copy` and have `from stdin` later. -/
def copies : List Token → Bool
  | [] => false
  | t :: ts => t.isKeyword "copy".toList && readsInput ts

theorem readsInput_iff {ts : List Token} :
    readsInput ts = true ↔ ∃ before a b behind, ts = before ++ a :: b :: behind ∧
      a.isKeyword "from".toList = true ∧ b.isKeyword "stdin".toList = true := by
  fun_induction readsInput ts with
  | case1 a b ts ih =>
    rw [Bool.or_eq_true, ih, Bool.and_eq_true]
    constructor
    · rintro (⟨ha, hb⟩ | ⟨before, a', b', behind, he, ha, hb⟩)
      · exact ⟨[], a, b, ts, rfl, ha, hb⟩
      · exact ⟨a :: before, a', b', behind, by rw [he]; rfl, ha, hb⟩
    · rintro ⟨before, a', b', behind, he, ha, hb⟩
      cases before with
      | nil =>
        cases he
        exact Or.inl ⟨ha, hb⟩
      | cons c before =>
        rw [List.cons_append, List.cons.injEq] at he
        exact Or.inr ⟨before, a', b', behind, he.2, ha, hb⟩
  | case2 ts hshort =>
    simp only [Bool.false_eq_true, false_iff]
    rintro ⟨before, a, b, behind, rfl, -⟩
    match before with
    | [] => exact hshort a b behind rfl
    | [c] => exact hshort c a (b :: behind) rfl
    | c :: c' :: before => exact hshort c c' (before ++ a :: b :: behind) rfl

theorem copiesFromInput_iff {g : List Token} :
    CopiesFromInput g ↔ copies (g.filter (fun t => !t.isBlank)) = true := by
  unfold CopiesFromInput
  cases g.filter (fun t => !t.isBlank) with
  | nil => simp [copies]
  | cons t ts =>
    simp only [copies, Bool.and_eq_true, readsInput_iff, List.cons.injEq]
    constructor
    · rintro ⟨c, before, a, b, behind, ⟨rfl, rfl⟩, hc, ha, hb⟩
      exact ⟨hc, before, a, b, behind, rfl, ha, hb⟩
    · rintro ⟨hc, before, a, b, behind, rfl, ha, hb⟩
      exact ⟨t, before, a, b, behind, ⟨rfl, rfl⟩, hc, ha, hb⟩

instance (g : List Token) : Decidable (CopiesFromInput g) :=
  decidable_of_iff _ copiesFromInput_iff.symm

/-- The statement of a group: where its first token starts, and its text. -/
def statementOf (g : List Token) : Statement := ⟨(g.head?.map Token.start).getD 0, textOf g⟩

/-- What a group stands for: its statement, unless that copies from the input. -/
def outcome (g : List Token) : Except Error Statement :=
  if CopiesFromInput g then .error (.unsupportedStatement (textOf g)) else .ok (statementOf g)

/-- What all groups stand for. With parentheses left over, the last group is no statement. -/
def outcomes (ts : List Token) : List (Except Error Statement) :=
  if depth ts = 0 then (statements ts).map outcome
  else (statements ts).dropLast.map outcome ++ [.error (.unbalancedParentheses (depth ts))]

/-- A list up to its first error, that error included. -/
def untilError {α : Type} : List (Except Error α) → List (Except Error α)
  | [] => []
  | .ok a :: rest => .ok a :: untilError rest
  | .error e :: _ => [.error e]

/-- The answers that the tokens of a script call for. -/
def answers (ts : List Token) : List (Except Error Statement) := untilError (outcomes ts)

/-! ## Depth -/

@[simp] theorem depth_nil : depth [] = 0 := rfl

@[simp] theorem depth_append (ts us : List Token) : depth (ts ++ us) = depth ts + depth us := by
  simp only [depth, List.countP_append]
  omega

theorem depth_singleton (t : Token) : depth [t] = weight t := by
  simp only [depth, weight, List.countP_cons, List.countP_nil]
  by_cases ho : t.isSymbol ['('] = true
  · have hc := Token.isSymbol_eq_false_of_ne ho [')'] (by decide)
    simp [ho, hc]
  · by_cases hc : t.isSymbol [')'] = true
    · simp [ho, hc]
    · simp [ho, hc]

theorem depth_cons (t : Token) (ts : List Token) : depth (t :: ts) = weight t + depth ts := by
  rw [← List.singleton_append, depth_append, depth_singleton]

theorem balance_eq_depth (ts : List Token) : balance ts = depth ts := by
  induction ts with
  | nil => rfl
  | cons t ts ih => rw [balance, ih, depth_cons]

theorem weight_semicolon {t : Token} (h : t.isSymbol [';'] = true) : weight t = 0 := by
  have ho := Token.isSymbol_eq_false_of_ne h ['('] (by decide)
  have hc := Token.isSymbol_eq_false_of_ne h [')'] (by decide)
  simp [weight, ho, hc]

/-- A blank is no symbol. -/
theorem isSymbol_of_isBlank {t : Token} (h : t.isBlank = true) (s : Text) :
    t.isSymbol s = false := by
  rw [Token.isBlank, beq_iff_eq] at h
  simp [Token.isSymbol, h]

theorem weight_of_isBlank {t : Token} (h : t.isBlank = true) : weight t = 0 := by
  simp [weight, isSymbol_of_isBlank h]

/-! ## The first group -/

/-- Only the depth of the tokens before counts. -/
theorem groupsAfter_congr {before before' : List Token} (h : depth before = depth before')
    (ts : List Token) : groupsAfter before ts = groupsAfter before' ts := by
  induction ts generalizing before before' with
  | nil => rfl
  | cons t ts ih =>
    have ht : depth (before ++ [t]) = depth (before' ++ [t]) := by
      rw [depth_append, depth_append, h]
    rw [groupsAfter, groupsAfter, ht, ih ht]

/-- Behind a semicolon the depth is that before it. -/
theorem depth_append_semicolon {before : List Token} {t : Token} (h : t.isSymbol [';'] = true) :
    depth (before ++ [t]) = depth before := by
  rw [depth_append, depth_singleton, weight_semicolon h, Int.add_zero]

/-- **The first group is what a cut takes off**, and the others are the groups of the rest. -/
theorem groupsAfter_of_cut (before : List Token) {ts g rest : List Token}
    (h : cut (depth before) ts = some (g, rest)) : groupsAfter before ts = g :: groups rest := by
  induction ts generalizing before g with
  | nil => cases h
  | cons t ts ih =>
    rw [cut] at h
    rw [groupsAfter]
    split at h
    · next ht =>
      cases h
      have hd : depth (before ++ [t]) = 0 := by rw [depth_append_semicolon ht.1, ht.2]
      have hreset : depth (before ++ [t]) = depth [] := by rw [hd, depth_nil]
      rw [if_pos ⟨ht.1, hd⟩, groupsAfter_congr hreset]
      rfl
    · next ht =>
      obtain ⟨⟨g', rest'⟩, hcut, he⟩ := Option.map_eq_some_iff.1 h
      cases he
      rw [if_neg fun hc => ht ⟨hc.1, by rw [← hc.2, depth_append_semicolon hc.1]⟩]
      rw [← depth_singleton, ← depth_append] at hcut
      rw [ih (before ++ [t]) hcut, List.modifyHead_cons]

/-- Without a cut all tokens are one group. -/
theorem groupsAfter_of_cut_eq_none (before : List Token) {ts : List Token}
    (h : cut (depth before) ts = none) : groupsAfter before ts = [ts] := by
  induction ts generalizing before with
  | nil => rfl
  | cons t ts ih =>
    rw [cut] at h
    rw [groupsAfter]
    split at h
    · cases h
    · next ht =>
      rw [if_neg fun hc => ht ⟨hc.1, by rw [← hc.2, depth_append_semicolon hc.1]⟩]
      rw [Option.map_eq_none_iff, ← depth_singleton, ← depth_append] at h
      rw [ih (before ++ [t]) h, List.modifyHead_cons]

/-- What a cut takes off is balanced. -/
theorem depth_of_cut {depth₀ : Int} {ts g rest : List Token} (h : cut depth₀ ts = some (g, rest)) :
    depth₀ + depth g = 0 := by
  induction ts generalizing depth₀ g with
  | nil => cases h
  | cons t ts ih =>
    rw [cut] at h
    split at h
    · next ht =>
      cases h
      rw [depth_singleton, weight_semicolon ht.1, ht.2, Int.add_zero]
    · obtain ⟨⟨g', rest'⟩, hcut, he⟩ := Option.map_eq_some_iff.1 h
      cases he
      rw [depth_cons, ← Int.add_assoc]
      exact ih hcut

theorem head?_of_cut {depth₀ : Int} {t : Token} {ts g rest : List Token}
    (h : cut depth₀ (t :: ts) = some (g, rest)) : ∃ g', g = t :: g' := by
  rw [cut] at h
  split at h
  · cases h
    exact ⟨[], rfl⟩
  · obtain ⟨⟨g', rest'⟩, -, he⟩ := Option.map_eq_some_iff.1 h
    cases he
    exact ⟨g', rfl⟩

theorem flatten_groupsAfter (before ts : List Token) : (groupsAfter before ts).flatten = ts := by
  induction ts generalizing before with
  | nil => rfl
  | cons t ts ih =>
    rw [groupsAfter]
    split
    · rw [List.flatten_cons, ih, List.singleton_append]
    · have hrest := ih (before ++ [t])
      cases hg : groupsAfter (before ++ [t]) ts with
      | nil =>
        rw [hg] at hrest
        cases ts with
        | nil => cases hg
        | cons u us => cases hrest
      | cons g gs =>
        rw [hg] at hrest
        rw [List.modifyHead_cons, List.flatten_cons, List.cons_append, ← List.flatten_cons, hrest]

/-! ## The first statement -/

/-- A blank at the start belongs to no statement. -/
theorem statements_cons_blank {t : Token} (h : t.isBlank = true) (ts : List Token) :
    statements (t :: ts) = statements ts := by
  have hgroups : groups (t :: ts) = (groups ts).modifyHead (t :: ·) := by
    rw [groups, groupsAfter, if_neg (by simp [isSymbol_of_isBlank h]), List.nil_append]
    have hreset : depth [t] = depth [] := by
      rw [depth_singleton, weight_of_isBlank h, depth_nil]
    rw [groupsAfter_congr hreset]
    rfl
  rw [statements, hgroups, statements]
  cases groups ts with
  | nil => rfl
  | cons g gs => rw [List.modifyHead_cons, List.map_cons, List.map_cons, List.dropWhile_cons, if_pos h]

theorem outcomes_cons_blank {t : Token} (h : t.isBlank = true) (ts : List Token) :
    outcomes (t :: ts) = outcomes ts := by
  rw [outcomes, outcomes, statements_cons_blank h, depth_cons, weight_of_isBlank h, Int.zero_add]

/-- Blanks at the start call for no answer. -/
theorem outcomes_dropWhile (ts : List Token) :
    outcomes (ts.dropWhile Token.isBlank) = outcomes ts := by
  induction ts with
  | nil => rfl
  | cons t ts ih =>
    rw [List.dropWhile_cons]
    split
    · next h => rw [ih, outcomes_cons_blank h]
    · rfl

/-- The first statement is what a cut takes off. -/
theorem statements_of_cut {t : Token} (ht : t.isBlank = false) {ts g rest : List Token}
    (h : cut 0 (t :: ts) = some (g, rest)) : statements (t :: ts) = g :: statements rest := by
  obtain ⟨g', rfl⟩ := head?_of_cut h
  rw [statements, groups, groupsAfter_of_cut [] h, List.map_cons, List.dropWhile_cons,
    if_neg (by simp [ht])]
  rfl

/-- Without a cut all tokens are one statement. -/
theorem statements_of_cut_eq_none {t : Token} (ht : t.isBlank = false) {ts : List Token}
    (h : cut 0 (t :: ts) = none) : statements (t :: ts) = [t :: ts] := by
  rw [statements, groups, groupsAfter_of_cut_eq_none [] h, List.map_singleton,
    List.dropWhile_cons, if_neg (by simp [ht])]
  rfl

/-- The first token behind leading blanks is none. -/
theorem isBlank_of_dropWhile {ts us : List Token} {t : Token}
    (h : ts.dropWhile Token.isBlank = t :: us) : t.isBlank = false := by
  have hne : ts.dropWhile Token.isBlank ≠ [] := by rw [h]; simp
  have hhead := List.head_dropWhile_not Token.isBlank hne
  simpa [h] using hhead

/-- Tokens without a statement are blanks, and so balanced. -/
theorem depth_of_statements_eq_nil {ts : List Token} (h : statements ts = []) : depth ts = 0 := by
  induction ts with
  | nil => rfl
  | cons t ts ih =>
    by_cases hb : t.isBlank = true
    · rw [statements_cons_blank hb] at h
      rw [depth_cons, weight_of_isBlank hb, ih h, Int.zero_add]
    · rw [Bool.not_eq_true] at hb
      cases hcut : cut 0 (t :: ts) with
      | none =>
        rw [statements_of_cut_eq_none hb hcut] at h
        cases h
      | some r =>
        rw [statements_of_cut hb hcut] at h
        cases h

/-- The first outcome is that of what a cut takes off. -/
theorem outcomes_of_cut {t : Token} (ht : t.isBlank = false) {ts g rest : List Token}
    (h : cut 0 (t :: ts) = some (g, rest)) : outcomes (t :: ts) = outcome g :: outcomes rest := by
  have hdepth : depth (t :: ts) = depth rest := by
    have hg := depth_of_cut h
    rw [← cut_append h, depth_append]
    omega
  rw [outcomes, outcomes, hdepth, statements_of_cut ht h]
  split
  · rw [List.map_cons]
  · next hd =>
    -- the statement that is left unfinished is one of the rest, and not the one cut off
    have hne : statements rest ≠ [] := fun he => hd (depth_of_statements_eq_nil he)
    rw [List.dropLast_cons_of_ne_nil hne, List.map_cons, List.cons_append]

/-! ## Reading a statement again -/

/-- Tokens that stand at the end of the tokens of a source. -/
def IsEnd (d : Dialect) (ts : List Token) : Prop :=
  ∃ source before, tokenize { dialect := d } source = before ++ ts

theorem copies_shift (a : Nat) (ts : List Token) : copies (ts.map (Token.shift a)) = copies ts := by
  have hreads : ∀ us : List Token, readsInput (us.map (Token.shift a)) = readsInput us := by
    intro us
    fun_induction readsInput us with
    | case1 x y us ih =>
      rw [List.map_cons, List.map_cons, readsInput, ← List.map_cons, ih]
      rfl
    | case2 us hshort =>
      match us, hshort with
      | [], _ => rfl
      | [x], _ => rfl
      | x :: y :: us, hshort => exact absurd rfl (hshort x y us)
  cases ts with
  | nil => rfl
  | cons t ts =>
    rw [List.map_cons, copies, hreads]
    rfl

/-- **The check of a statement finds the words of the tokens that make it up.** -/
theorem copiesFromInput_textOf {d : Dialect} {source : Text} {before g behind : List Token}
    (h : tokenize { dialect := d } source = before ++ g ++ behind) :
    copiesFromInput d (textOf g) = decide (CopiesFromInput g) := by
  have hread := (tokenize_textOf h).2
  have hcopies : copiesFromInput d (textOf g)
      = copies (tokenize { dialect := d, ignoreBlanks := true } (textOf g)) := rfl
  rw [hcopies, ← copies_shift (byteSize (textOf before)), hread]
  by_cases hc : copies (g.filter fun t => !t.isBlank) = true
  · rw [hc, decide_eq_true (copiesFromInput_iff.2 hc)]
  · rw [decide_eq_false (mt copiesFromInput_iff.1 hc), Bool.eq_false_iff.2 hc]

/-- The check of the statement of a group gives what the group stands for. -/
theorem check_eq_outcome {d : Dialect} {source : Text} {before g behind : List Token} {t : Token}
    (h : tokenize { dialect := d } source = before ++ (t :: g) ++ behind) :
    check d ⟨t.start, textOf (t :: g)⟩ = outcome (t :: g) := by
  rw [check, copiesFromInput_textOf h, outcome]
  by_cases hc : CopiesFromInput (t :: g)
  · rw [if_pos (decide_eq_true hc), if_pos hc]
  · rw [if_neg (by simp [hc]), if_neg hc]
    rfl

/-! ## Calls -/

/-- Giving the statement of a group gives its outcome, and after an error there is nothing left. -/
theorem give_answers {s : Splitter} {st : Statement} {rest : List Token}
    {item : Except Error Statement} {later : List (Except Error Statement)}
    (hitem : check s.dialect st = item) (hlater : answers rest = untilError later) :
    some (s.give st rest).1 = (untilError (item :: later)).head? ∧
      answers (s.give st rest).2.pending = (untilError (item :: later)).tail := by
  rw [Splitter.fst_give, hitem]
  cases item with
  | ok st' =>
    refine ⟨rfl, ?_⟩
    rw [Splitter.give, hitem]
    exact hlater
  | error e =>
    refine ⟨rfl, ?_⟩
    rw [Splitter.give, hitem]
    rfl

/-- **A call gives the first answer and leaves the others.** -/
theorem next_answers {s : Splitter} (hs : IsEnd s.dialect s.pending) :
    s.next.1 = (answers s.pending).head? ∧
      answers s.next.2.pending = (answers s.pending).tail := by
  obtain ⟨source, before, hsource⟩ := hs
  have hanswers : answers s.pending
      = untilError (outcomes (s.pending.dropWhile Token.isBlank)) := by
    rw [outcomes_dropWhile, answers]
  have hdrop := List.takeWhile_append_dropWhile (p := Token.isBlank) (l := s.pending)
  rw [hanswers]
  rcases Splitter.next_cases s with
    ⟨hp, hn⟩ | ⟨t, ts, hp, ⟨g, rest, hcut, hn⟩ | ⟨hcut, hb, hn⟩ | ⟨hcut, hb, hn⟩⟩
  · rw [hp, hn]
    exact ⟨rfl, rfl⟩
  · -- a cut: the first group is what it takes off
    obtain ⟨g', rfl⟩ := head?_of_cut hcut
    have htokens : tokenize { dialect := s.dialect } source
        = before ++ s.pending.takeWhile Token.isBlank ++ (t :: g') ++ rest := by
      rw [hsource, List.append_assoc, cut_append hcut, List.append_assoc, ← hp, hdrop]
    have hchecked := check_eq_outcome htokens
    rw [hp, hn, outcomes_of_cut (isBlank_of_dropWhile hp) hcut]
    exact give_answers hchecked rfl
  · -- no cut, and parentheses are left over
    rw [balance_eq_depth] at hb
    rw [hp, hn, outcomes, if_neg hb, statements_of_cut_eq_none (isBlank_of_dropWhile hp) hcut,
      balance_eq_depth]
    exact ⟨rfl, rfl⟩
  · -- no cut: all that is left is one group
    rw [balance_eq_depth] at hb
    have htokens : tokenize { dialect := s.dialect } source
        = before ++ s.pending.takeWhile Token.isBlank ++ (t :: ts) ++ [] := by
      rw [hsource, List.append_nil, List.append_assoc, ← hp, hdrop]
    have hchecked := check_eq_outcome htokens
    rw [hp, hn, outcomes, if_pos hb, statements_of_cut_eq_none (isBlank_of_dropWhile hp) hcut,
      List.map_singleton]
    exact give_answers hchecked rfl

/-- Calls leave tokens at the end of the source. -/
theorem isEnd_next {s : Splitter} (hs : IsEnd s.dialect s.pending) :
    IsEnd s.next.2.dialect s.next.2.pending := by
  obtain ⟨source, before, hsource⟩ := hs
  obtain ⟨hdialect, ts, hts⟩ := Splitter.next_keeps s
  refine ⟨source, before ++ ts, ?_⟩
  rw [hdialect, List.append_assoc, hts, hsource]

/-- **Each call gets its answer**, and those behind the last answer get none. -/
theorem answer_eq_getElem? {s : Splitter} (hs : IsEnd s.dialect s.pending) (k : Nat) :
    s.answer k = (answers s.pending)[k]? := by
  induction k generalizing s with
  | zero => rw [Splitter.answer_zero, (next_answers hs).1, List.head?_eq_getElem?]
  | succ k ih =>
    rw [Splitter.answer_succ, ih (isEnd_next hs), (next_answers hs).2, List.getElem?_tail]

theorem items_eq_answers {s : Splitter} (hs : IsEnd s.dialect s.pending) :
    s.items = answers s.pending := by
  fun_induction Splitter.items s with
  | case1 s s' hn =>
    have hhead := (next_answers hs).1
    rw [hn] at hhead
    exact (List.head?_eq_none_iff.1 hhead.symm).symm
  | case2 s item s' hn ih =>
    have hstep := next_answers hs
    have hend := isEnd_next hs
    rw [hn] at hstep hend
    obtain ⟨later, hlater⟩ := List.head?_eq_some_iff.1 hstep.1.symm
    rw [ih hend, hstep.2, hlater, List.tail_cons]

theorem isEnd_start (standardQuoting : Bool) (sql : Text) :
    IsEnd (Splitter.start standardQuoting sql).dialect
      (Splitter.start standardQuoting sql).pending := ⟨sql, [], rfl⟩

/-! ## The text of a script -/

/-- Groups are the statements with the blanks that were left out between them. -/
theorem exists_gaps (gs : List (List Token)) :
    ∃ (gaps : List (List Token)) (tail : List Token),
      gaps.length = ((gs.map (·.dropWhile Token.isBlank)).filter (!·.isEmpty)).length ∧
      (∀ t ∈ gaps.flatten ++ tail, t.isBlank = true) ∧
      (List.zipWith (· ++ ·) gaps
          ((gs.map (·.dropWhile Token.isBlank)).filter (!·.isEmpty))).flatten ++ tail
        = gs.flatten := by
  induction gs with
  | nil => exact ⟨[], [], rfl, by simp, rfl⟩
  | cons g gs ih =>
    obtain ⟨gaps, tail, hlen, hblank, hflat⟩ := ih
    have htake : ∀ t ∈ g.takeWhile Token.isBlank, t.isBlank = true :=
      List.all_eq_true.1 List.all_takeWhile
    have hsplit := List.takeWhile_append_dropWhile (p := Token.isBlank) (l := g)
    rw [List.map_cons, List.filter_cons, List.flatten_cons, ← hflat]
    split
    · refine ⟨g.takeWhile Token.isBlank :: gaps, tail, by simp [hlen], ?_, ?_⟩
      · intro t ht
        rw [List.flatten_cons, List.append_assoc, List.mem_append] at ht
        exact ht.elim (htake t) (hblank t)
      · rw [List.zipWith_cons_cons, List.flatten_cons, hsplit, List.append_assoc]
    · next hempty =>
      -- the group is blank: its blanks go to the next gap, or to the end
      have hg : g.dropWhile Token.isBlank = [] := by simpa using hempty
      rw [hg, List.append_nil] at hsplit
      rw [hsplit] at htake
      cases gaps with
      | nil =>
        rw [List.length_nil, eq_comm, List.length_eq_zero_iff] at hlen
        refine ⟨[], g ++ tail, by rw [hlen], ?_, by rw [hlen]; simp⟩
        intro t ht
        rw [List.flatten_nil, List.nil_append, List.mem_append] at ht
        exact ht.elim (htake t) (fun h => hblank t (by simpa using h))
      | cons gap gaps =>
        obtain ⟨st, sts, hsts⟩ := List.exists_cons_of_length_pos
          (l := (gs.map (·.dropWhile Token.isBlank)).filter (!·.isEmpty)) (by rw [← hlen]; simp)
        rw [hsts] at hlen ⊢
        refine ⟨(g ++ gap) :: gaps, tail, by simpa using hlen, ?_, ?_⟩
        · intro t ht
          rw [List.flatten_cons, List.append_assoc, List.append_assoc, List.mem_append] at ht
          refine ht.elim (htake t) fun h => hblank t ?_
          rwa [List.flatten_cons, List.append_assoc]
        · simp [List.append_assoc]

theorem textOf_flatten_zipWith (gaps gs : List (List Token)) :
    textOf (List.zipWith (· ++ ·) gaps gs).flatten
      = (List.zipWith (fun gap g => textOf gap ++ textOf g) gaps gs).flatten := by
  induction gaps generalizing gs with
  | nil => rfl
  | cons gap gaps ih =>
    cases gs with
    | nil => rfl
    | cons g gs =>
      rw [List.zipWith_cons_cons, List.zipWith_cons_cons, List.flatten_cons, List.flatten_cons, ← ih]
      simp only [textOf, List.flatMap_append]

/-- A statement is some tokens in a row. -/
theorem exists_append_of_mem_statements {ts g : List Token} (h : g ∈ statements ts) :
    g ≠ [] ∧ ∃ before behind, ts = before ++ g ++ behind := by
  obtain ⟨hmem, hne⟩ := List.mem_filter.1 h
  obtain ⟨g', hg', rfl⟩ := List.mem_map.1 hmem
  refine ⟨by simpa using hne, ?_⟩
  have hinfix : g'.dropWhile Token.isBlank <:+: (groups ts).flatten :=
    (List.dropWhile_suffix _).isInfix.trans (List.infix_of_mem_flatten hg')
  rw [groups, flatten_groupsAfter] at hinfix
  obtain ⟨before, behind, he⟩ := hinfix
  exact ⟨before, behind, he.symm⟩

theorem textOf_tokenize (d : Dialect) (source : Text) :
    textOf (tokenize { dialect := d } source) = source :=
  textOf_tokenize_of_kept rfl source

/-- The text of a statement stands in the source where its first token starts. -/
theorem slice?_statementOf {d : Dialect} {source : Text} {g : List Token}
    (h : g ∈ statements (tokenize { dialect := d } source)) :
    slice? source (statementOf g).start ((statementOf g).start + byteSize (textOf g))
      = some (textOf g) := by
  obtain ⟨hne, before, behind, hts⟩ := exists_append_of_mem_statements h
  have hsource := textOf_tokenize d source
  have hstart : (statementOf g).start = byteSize (textOf before) := by
    obtain ⟨t, g, rfl⟩ := List.exists_cons_of_ne_nil hne
    rw [List.append_assoc] at hts
    exact start_of_append hts
  rw [hts] at hsource
  rw [hstart, ← hsource]
  simp only [textOf, List.flatMap_append]
  exact slice?_append _ _ _

/-- A list without errors is its own part up to the first error. -/
theorem untilError_eq_self {α : Type} {l : List (Except Error α)}
    (h : ∀ item ∈ untilError l, item.isOk = true) : untilError l = l := by
  induction l with
  | nil => rfl
  | cons item l ih =>
    cases item with
    | ok a =>
      rw [untilError] at h ⊢
      rw [ih fun i hi => h i (List.mem_cons_of_mem _ hi)]
    | error e => cases h (.error e) List.mem_cons_self

/-- Without errors every group is a statement. -/
theorem answers_eq_map_ok {ts : List Token} (h : ∀ item ∈ answers ts, item.isOk = true) :
    answers ts = ((statements ts).map statementOf).map .ok := by
  have hself := untilError_eq_self h
  rw [answers] at h
  rw [hself] at h
  rw [answers, hself, outcomes]
  split
  · next hd =>
    rw [outcomes, if_pos hd] at h
    rw [List.map_map]
    refine List.map_congr_left fun g hg => ?_
    have hok := h (outcome g) (List.mem_map_of_mem hg)
    rw [outcome] at hok ⊢
    split at hok
    · cases hok
    · next hc => rw [if_neg hc]; rfl
  · next hd =>
    rw [outcomes, if_neg hd] at h
    cases h (.error (.unbalancedParentheses (depth ts))) (by simp)

end Script

/--
**The splitter gives what the groups of tokens stand for.** Call after call it answers with the
statements of the groups, up to the first error, and then with nothing; each statement is the text
of the source at its place. Where no error occurs, the statements and the blanks that were left out
make up the script.
-/
theorem split_eq_answers (standardQuoting : Bool) (sql : Text) :
    let ts := tokenize { dialect := { standardQuoting } } sql
    split standardQuoting sql = Script.answers ts ∧
    (∀ k, (Splitter.start standardQuoting sql).answer k = (Script.answers ts)[k]?) ∧
    (∀ g ∈ Script.statements ts,
      slice? sql (Script.statementOf g).start
        ((Script.statementOf g).start + byteSize (textOf g)) = some (textOf g)) ∧
    ((∀ item ∈ split standardQuoting sql, item.isOk = true) →
      ∃ (gaps : List (List Token)) (tail : List Token),
        gaps.length = (Script.statements ts).length ∧
        (∀ t ∈ gaps.flatten ++ tail, t.isBlank = true) ∧
        (List.zipWith (· ++ ·) gaps (Script.statements ts)).flatten ++ tail = ts ∧
        ∃ sts, split standardQuoting sql = sts.map .ok ∧
          (List.zipWith (fun gap st => textOf gap ++ st.text) gaps sts).flatten ++ textOf tail
            = sql) := by
  intro ts
  have hend := Script.isEnd_start standardQuoting sql
  have hsplit : split standardQuoting sql = Script.answers ts := Script.items_eq_answers hend
  refine ⟨hsplit, Script.answer_eq_getElem? hend, fun g hg => Script.slice?_statementOf hg, ?_⟩
  intro hok
  rw [hsplit] at hok ⊢
  obtain ⟨gaps, tail, hlen, hblank, hflat⟩ := Script.exists_gaps (Script.groups ts)
  change gaps.length = (Script.statements ts).length at hlen
  rw [Script.groups, Script.flatten_groupsAfter] at hflat
  refine ⟨gaps, tail, hlen, hblank, hflat, (Script.statements ts).map Script.statementOf,
    Script.answers_eq_map_ok hok, ?_⟩
  have htext := congrArg textOf hflat
  rw [Script.textOf_tokenize, textOf, List.flatMap_append, ← textOf, ← textOf,
    Script.textOf_flatten_zipWith] at htext
  rw [List.zipWith_map_right]
  exact htext

/-- A script with a comment before a statement and a semicolon in parentheses. -/
theorem split_eq_answers_nested :
    let sql := "-- a;\n select (1;) ; b ".toList
    let ts := tokenize { dialect := { standardQuoting := false } } sql
    (∀ item ∈ split false sql, item.isOk = true) ∧
      ∃ (gaps : List (List Token)) (tail : List Token),
        gaps.length = (Script.statements ts).length ∧
        (∀ t ∈ gaps.flatten ++ tail, t.isBlank = true) ∧
        (List.zipWith (· ++ ·) gaps (Script.statements ts)).flatten ++ tail = ts ∧
        ∃ sts, split false sql = sts.map .ok ∧
          (List.zipWith (fun gap st => textOf gap ++ st.text) gaps sts).flatten ++ textOf tail
            = sql := by
  intro sql ts
  have hok : ∀ item ∈ split false sql, item.isOk = true := by decide +kernel
  exact ⟨hok, (split_eq_answers false sql).2.2.2 hok⟩

end SqlText
