import SqlText.Proofs.Result
import SqlText.Proofs.Statement.Groups

/-!
# Statements split again

A statement that a splitter gave is a script of its own: split again, it gives itself and nothing
more. Its tokens are read as they were read in the script, also where a quote, a tag or a comment
never closes, and the depth of parentheses that starts anew was zero before the statement too. What
was skipped between two statements is read by itself as blanks only.

## Main statements

* `leads_of_next`: what a call that gives a statement takes off the tokens.
* `leads_of_items`: where each statement stands, along all calls.
* `Leads.answers_text`: a statement splits into itself.
* `split_again`: so do all statements of a script, and what lies between them is blank.
-/

namespace SqlText

open Text Lexeme Statement

namespace Script

/-! ## Tokens that are one statement -/

/--
Whether tokens are one statement: they end with their first semicolon outside parentheses, or have
none and leave no parenthesis open.
-/
def IsWhole (ts : List Token) : Prop := cut 0 ts = some (ts, []) ∨ cut 0 ts = none ∧ depth ts = 0

/-- What a cut takes off is cut at its end and nowhere before. -/
theorem cut_of_cut {k : Int} {ts g rest : List Token} (h : cut k ts = some (g, rest)) :
    cut k g = some (g, []) := by
  induction ts generalizing k g with
  | nil => cases h
  | cons t ts ih =>
    rw [cut] at h
    split at h
    · next ht =>
      cases h
      rw [cut, if_pos ht]
    · next ht =>
      obtain ⟨⟨g', rest'⟩, hcut, he⟩ := Option.map_eq_some_iff.1 h
      cases he
      rw [cut, if_neg ht, ih hcut]
      rfl

/-- One statement has one outcome. -/
theorem outcomes_of_isWhole {t : Token} {ts : List Token} (ht : t.isBlank = false)
    (h : IsWhole (t :: ts)) : outcomes (t :: ts) = [outcome (t :: ts)] := by
  rcases h with hcut | ⟨hcut, hdepth⟩
  · rw [outcomes_of_cut ht hcut]
    rfl
  · rw [outcomes, if_pos hdepth, statements_of_cut_eq_none ht hcut, List.map_singleton]

/-! ## Tokens at other offsets -/

theorem cut_shift (a : Nat) (k : Int) (ts : List Token) :
    cut k (ts.map (Token.shift a))
      = (cut k ts).map fun r => (r.1.map (Token.shift a), r.2.map (Token.shift a)) := by
  induction ts generalizing k with
  | nil => rfl
  | cons t ts ih =>
    rw [List.map_cons, cut, cut]
    -- offsets count neither for symbols nor for the depth
    change (if t.isSymbol [';'] = true ∧ k = 0 then _
      else (cut (k + weight t) (ts.map (Token.shift a))).map _) = _
    rw [ih]
    split
    · rfl
    · rw [Option.map_map, Option.map_map]
      rfl

theorem depth_shift (a : Nat) (ts : List Token) : depth (ts.map (Token.shift a)) = depth ts := by
  induction ts with
  | nil => rfl
  | cons t ts ih =>
    rw [List.map_cons, depth_cons, depth_cons, ih]
    rfl

/-- Tokens are one statement wherever they stand. -/
theorem isWhole_of_shift {a : Nat} {ts : List Token} (h : IsWhole (ts.map (Token.shift a))) :
    IsWhole ts := by
  unfold IsWhole at h
  rw [cut_shift, depth_shift] at h
  rcases h with hcut | ⟨hcut, hdepth⟩
  · obtain ⟨⟨g, rest⟩, hcut, he⟩ := Option.map_eq_some_iff.1 hcut
    obtain rfl : rest = [] := List.map_eq_nil_iff.1 (Prod.mk.inj he).2
    obtain rfl : g = ts := by
      have happend := cut_append hcut
      rwa [List.append_nil] at happend
    exact Or.inl hcut
  · exact Or.inr ⟨Option.map_eq_none_iff.1 hcut, hdepth⟩

/-! ## Calls that give a statement -/

theorem eq_of_check {d : Dialect} {st st' : Statement} (h : check d st = .ok st') : st' = st := by
  unfold check at h
  split at h
  · cases h
  · cases h
    rfl

/-- Giving a statement leaves the rest, and refusing one leaves nothing. -/
theorem give_cases (s : Splitter) (st : Statement) (rest : List Token) :
    (check s.dialect st = .ok st ∧ s.give st rest = (.ok st, { s with pending := rest })) ∨
      ∃ e, s.give st rest = (.error e, s.done) := by
  unfold Splitter.give
  split
  · next st' h =>
    obtain rfl := eq_of_check h
    exact Or.inl ⟨h, rfl⟩
  · next e _ => exact Or.inr ⟨e, rfl⟩

/-- After an error there are no tokens left. -/
theorem pending_of_error {s s' : Splitter} {e : Error} (h : s.next = (some (.error e), s')) :
    s'.pending = [] := by
  have hgive : ∀ (st : Statement) (rest : List Token),
      (some (s.give st rest).1, (s.give st rest).2) = (some (.error e), s') →
      s'.pending = [] := by
    intro st rest hg
    rcases give_cases s st rest with ⟨-, hok⟩ | ⟨e', herror⟩
    · rw [hok] at hg
      cases hg
    · rw [herror] at hg
      cases hg
      rfl
  rcases Splitter.next_cases s with
    ⟨-, hn⟩ | ⟨t, ts, -, ⟨g, rest, -, hn⟩ | ⟨-, -, hn⟩ | ⟨-, -, hn⟩⟩
  · rw [hn] at h
    cases h
  · exact hgive _ _ (hn.symm.trans h)
  · rw [hn] at h
    cases h
    rfl
  · exact hgive _ _ (hn.symm.trans h)

/--
Whether tokens start with blanks and then with the tokens of a statement, which is not refused, and
have `rest` behind it.
-/
def Leads (d : Dialect) (ts : List Token) (st : Statement) (rest : List Token) : Prop :=
  ∃ gap t g, ts = gap ++ (t :: g) ++ rest ∧ (∀ u ∈ gap, u.isBlank = true) ∧ t.isBlank = false ∧
    IsWhole (t :: g) ∧ st = ⟨t.start, textOf (t :: g)⟩ ∧ check d st = .ok st

/-- **A call that gives a statement skips blanks and takes the tokens of the statement off.** -/
theorem leads_of_next {s s' : Splitter} {st : Statement} (h : s.next = (some (.ok st), s')) :
    Leads s.dialect s.pending st s'.pending := by
  have hblank : ∀ u ∈ s.pending.takeWhile Token.isBlank, u.isBlank = true :=
    List.all_eq_true.1 List.all_takeWhile
  have hdrop := List.takeWhile_append_dropWhile (p := Token.isBlank) (l := s.pending)
  have hgive : ∀ {t : Token} {ts g rest : List Token},
      s.pending.dropWhile Token.isBlank = t :: ts → (t :: g) ++ rest = t :: ts →
      IsWhole (t :: g) →
      (some (s.give ⟨t.start, textOf (t :: g)⟩ rest).1,
        (s.give ⟨t.start, textOf (t :: g)⟩ rest).2) = (some (.ok st), s') →
      Leads s.dialect s.pending st s'.pending := by
    intro t ts g rest hp happend hwhole hg
    rcases give_cases s ⟨t.start, textOf (t :: g)⟩ rest with ⟨hcheck, hok⟩ | ⟨e, herror⟩
    · rw [hok] at hg
      cases hg
      refine ⟨_, t, g, ?_, hblank, isBlank_of_dropWhile hp, hwhole, rfl, hcheck⟩
      rw [List.append_assoc, happend, ← hp, hdrop]
    · rw [herror] at hg
      cases hg
  rcases Splitter.next_cases s with
    ⟨-, hn⟩ | ⟨t, ts, hp, ⟨g, rest, hcut, hn⟩ | ⟨-, -, hn⟩ | ⟨hcut, hb, hn⟩⟩
  · rw [hn] at h
    cases h
  · obtain ⟨g, rfl⟩ := head?_of_cut hcut
    exact hgive hp (cut_append hcut) (Or.inl (cut_of_cut hcut)) (hn.symm.trans h)
  · rw [hn] at h
    cases h
  · rw [balance_eq_depth] at hb
    exact hgive hp (List.append_nil _) (Or.inr ⟨hcut, hb⟩) (hn.symm.trans h)

theorem items_eq_nil {s : Splitter} (h : s.pending = []) : s.items = [] := by
  have hnext : s.next = (none, s.done) := Splitter.next_of_blanks (by rw [h]; rfl)
  rw [Splitter.items]
  split
  · rfl
  · next hn =>
    rw [hnext] at hn
    cases hn

/-- Where the last of some statements ends, or `position` if there is none. -/
def stopAfter (position : Nat) : List (Except Error Statement) → Nat
  | [] => position
  | .ok st :: items => stopAfter (st.start + byteSize st.text) items
  | .error _ :: items => stopAfter position items

theorem textOf_append (ts us : List Token) : textOf (ts ++ us) = textOf ts ++ textOf us :=
  List.flatMap_append

/-- **Along all calls each statement stands behind the one before it**, with blanks between. -/
theorem leads_of_items {s : Splitter} {source : Text} (before : List Token)
    (hs : tokenize { dialect := s.dialect } source = before ++ s.pending)
    {items behind : List (Except Error Statement)} {st : Statement}
    (h : s.items = items ++ .ok st :: behind) :
    ∃ passed ts rest, tokenize { dialect := s.dialect } source = passed ++ ts ∧
      byteSize (textOf passed) = stopAfter (byteSize (textOf before)) items ∧
      Leads s.dialect ts st rest := by
  fun_induction Splitter.items s generalizing before items with
  | case1 => cases items <;> cases h
  | case2 s item s' hn ih =>
    cases items with
    | nil =>
      obtain ⟨rfl, -⟩ := List.cons.inj h
      exact ⟨before, s.pending, s'.pending, hs, rfl, leads_of_next hn⟩
    | cons first items =>
      obtain ⟨rfl, hrest⟩ := List.cons.inj h
      cases item with
      | error e =>
        -- behind an error there is no statement
        rw [items_eq_nil (pending_of_error hn)] at hrest
        cases items <;> cases hrest
      | ok st₀ =>
        obtain ⟨gap, t, g, hpending, -, -, -, rfl, -⟩ := leads_of_next hn
        have hdialect : s'.dialect = s.dialect := by
          have hkeeps := (Splitter.next_keeps s).1
          rwa [hn] at hkeeps
        have hs' : tokenize { dialect := s.dialect } source
            = before ++ gap ++ (t :: g) ++ s'.pending := by
          rw [hs, hpending, List.append_assoc, List.append_assoc, List.append_assoc]
        have hstart : t.start = byteSize (textOf (before ++ gap)) := by
          rw [List.append_assoc, List.cons_append] at hs'
          exact start_of_append hs'
        have hlater := ih (before ++ gap ++ (t :: g)) (hdialect ▸ hs') hrest
        rw [hdialect, textOf_append, byteSize_append, ← hstart] at hlater
        exact hlater

/-! ## One statement by itself -/

section

variable {d : Dialect} {source : Text} {passed ts rest : List Token} {st : Statement}
  (hts : tokenize { dialect := d } source = passed ++ ts)

include hts

/-- A statement read by itself starts with no blank and is one statement. -/
theorem Leads.exists_tokens (h : Leads d ts st rest) :
    ∃ t g, tokenize { dialect := d } st.text = t :: g ∧ t.isBlank = false ∧ IsWhole (t :: g) := by
  obtain ⟨gap, t, g, rfl, -, ht, hwhole, rfl, -⟩ := h
  have hgroups : tokenize { dialect := d } source = passed ++ gap ++ (t :: g) ++ rest := by
    rw [hts, List.append_assoc, List.append_assoc, List.append_assoc]
  obtain ⟨t', g', htokens, rfl, rfl⟩ := List.map_eq_cons_iff.1 (tokenize_textOf hgroups).1
  rw [← List.map_cons] at hwhole
  exact ⟨t', g', htokens, ht, isWhole_of_shift hwhole⟩

/-- **A statement splits into itself.** -/
theorem Leads.answers_text (h : Leads d ts st rest) :
    answers (tokenize { dialect := d } st.text) = [.ok ⟨0, st.text⟩] := by
  obtain ⟨t, g, htokens, ht, hwhole⟩ := h.exists_tokens hts
  obtain ⟨-, -, -, -, -, -, -, -, hcheck⟩ := h
  have htext : textOf (t :: g) = st.text := by rw [← htokens, textOf_tokenize]
  have hwhole' : tokenize { dialect := d } st.text = [] ++ (t :: g) ++ [] := by
    rw [htokens, List.append_nil, List.nil_append]
  have hstart : t.start = byteSize (textOf []) := start_of_append hwhole'
  have houtcome := check_eq_outcome hwhole'
  rw [htext, hstart] at houtcome
  rw [htokens, answers, outcomes_of_isWhole ht hwhole, ← houtcome]
  -- the check sees the text only, and let it pass before
  unfold check at hcheck ⊢
  split at hcheck
  · cases hcheck
  · next hno =>
    rw [if_neg hno]
    rfl

/-- What was skipped before a statement stands in the source and is read as blanks. -/
theorem Leads.exists_gap (h : Leads d ts st rest) :
    ∃ gap, slice? source (byteSize (textOf passed)) st.start = some gap ∧
      ∀ t ∈ tokenize { dialect := d } gap, t.isBlank = true := by
  obtain ⟨gap, t, g, rfl, hgap, -, -, rfl, -⟩ := h
  have hgroups : tokenize { dialect := d } source = passed ++ gap ++ (t :: g ++ rest) := by
    rw [hts, List.append_assoc, List.append_assoc]
  have hsource := textOf_tokenize d source
  rw [hgroups, textOf_append, textOf_append] at hsource
  have hstart : t.start = byteSize (textOf passed) + byteSize (textOf gap) := by
    rw [start_of_append hgroups, textOf_append, byteSize_append]
  refine ⟨textOf gap, ?_, fun u hu => ?_⟩
  · rw [hstart, ← hsource]
    exact slice?_append _ _ _
  · have hread := (tokenize_textOf hgroups).1
    have hmem : u.shift (byteSize (textOf passed)) ∈ gap := by
      rw [← hread]
      exact List.mem_map_of_mem hu
    exact hgap (u.shift (byteSize (textOf passed))) hmem

end

end Script

/--
**Splitting is idempotent.** Each statement of a script has a character, starts with no blank and,
split again by the same rule of quoting, gives itself and then nothing. What stands between the end
of one statement and the start of the next, or before the first one, is read by itself as blanks.
-/
theorem split_again (standardQuoting : Bool) (sql : Text) :
    (∀ st, .ok st ∈ split standardQuoting sql →
      st.text ≠ [] ∧
      (∃ t ts, tokenize { dialect := { standardQuoting } } st.text = t :: ts ∧
        t.isBlank = false) ∧
      split standardQuoting st.text = [.ok ⟨0, st.text⟩] ∧
      (Splitter.start standardQuoting st.text).answer 0 = some (.ok ⟨0, st.text⟩) ∧
      ∀ k, (Splitter.start standardQuoting st.text).answer (k + 1) = none) ∧
    ∀ before st behind, split standardQuoting sql = before ++ .ok st :: behind →
      ∃ gap, slice? sql (Script.stopAfter 0 before) st.start = some gap ∧
        ∀ t ∈ tokenize { dialect := { standardQuoting } } gap, t.isBlank = true := by
  have hleads : ∀ before st behind, split standardQuoting sql = before ++ .ok st :: behind →
      ∃ passed ts rest, tokenize { dialect := { standardQuoting } } sql = passed ++ ts ∧
        byteSize (textOf passed) = Script.stopAfter 0 before ∧
        Script.Leads { standardQuoting } ts st rest :=
    fun before st behind h => Script.leads_of_items [] rfl h
  refine ⟨fun st hst => ?_, fun before st behind h => ?_⟩
  · obtain ⟨before, behind, hsplit⟩ := List.append_of_mem hst
    obtain ⟨passed, ts, rest, hts, -, h⟩ := hleads before st behind hsplit
    obtain ⟨t, g, htokens, ht, -⟩ := h.exists_tokens hts
    have hend := Script.isEnd_start standardQuoting st.text
    have hanswers : Script.answers (Splitter.start standardQuoting st.text).pending
        = [.ok ⟨0, st.text⟩] := h.answers_text hts
    refine ⟨?_, ⟨t, g, htokens, ht⟩, (Script.items_eq_answers hend).trans hanswers, ?_, ?_⟩
    · intro hempty
      rw [hempty, tokenize_eq_place, lexemes_nil] at htokens
      cases htokens
    · rw [Script.answer_eq_getElem? hend, hanswers]
      rfl
    · intro k
      rw [Script.answer_eq_getElem? hend, hanswers]
      rfl
  · obtain ⟨passed, ts, rest, hts, hstop, h⟩ := hleads before st behind h
    rw [← hstop]
    exact h.exists_gap hts

/-- Statements around a comment, the last of them with a string and a comment that never close. -/
theorem split_again_unclosed :
    let sql := " a; -- b;\n c /* 'd''e; f".toList
    let st : Statement := ⟨11, "c /* 'd''e;".toList⟩
    .ok st ∈ split false sql ∧ split false st.text = [.ok ⟨0, st.text⟩] ∧
      split false sql = [.ok ⟨1, "a;".toList⟩, .ok st, .ok ⟨23, "f".toList⟩] ∧
      ∃ gap, slice? sql 3 11 = some gap ∧
        ∀ t ∈ tokenize { dialect := { standardQuoting := false } } gap, t.isBlank = true := by
  intro sql st
  have hsplit : split false sql
      = [.ok ⟨1, "a;".toList⟩, .ok st, .ok ⟨23, "f".toList⟩] := by decide +kernel
  have hmem : .ok st ∈ split false sql := by
    rw [hsplit]
    simp
  obtain ⟨hagain, hgap⟩ := split_again false sql
  exact ⟨hmem, (hagain st hmem).2.2.1, hsplit, hgap [.ok ⟨1, "a;".toList⟩] st _ hsplit⟩

end SqlText
