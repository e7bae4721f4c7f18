import SqlText.Statement

/-!
# Calls of the splitter

A script is split by calling `Splitter.next` again and again. `next_cases` says once what a call can
do; what holds along all calls is derived from it.

## Main statements

* `next_cases`: the four outcomes of a call.
* `pending_after`: the tokens still to be read are an end of the tokens of the script.
* `exists_tokens_of_told`: a statement is the text of some tokens in a row.
-/

namespace SqlText

namespace Splitter

open Statement

/-- The splitter after so many calls. -/
def after : Splitter → Nat → Splitter
  | s, 0 => s
  | s, k + 1 => s.next.2.after k

/-- The answer to the call that follows `k` calls. -/
def answer (s : Splitter) (k : Nat) : Option (Except Error Statement) := (s.after k).next.1

@[simp] theorem answer_zero (s : Splitter) : s.answer 0 = s.next.1 := rfl

@[simp] theorem answer_succ (s : Splitter) (k : Nat) : s.answer (k + 1) = s.next.2.answer k := rfl

/-- A call that finds only blanks gives nothing. -/
theorem next_of_blanks {s : Splitter} (h : s.pending.dropWhile Token.isBlank = []) :
    s.next = (none, s.done) := by
  unfold next
  split
  · rfl
  · next h' => rw [h] at h'; cases h'

/-- A call that finds a semicolon gives the tokens up to it. -/
theorem next_of_cut {s : Splitter} {t : Token} {ts g rest : List Token}
    (h : s.pending.dropWhile Token.isBlank = t :: ts) (hcut : cut 0 (t :: ts) = some (g, rest)) :
    s.next = (some (s.give ⟨t.start, textOf g⟩ rest).1, (s.give ⟨t.start, textOf g⟩ rest).2) := by
  unfold next
  split
  · next h' => rw [h] at h'; cases h'
  · next h' =>
    rw [h] at h'
    cases h'
    rw [hcut]

/-- A call that finds no semicolon and open parentheses refuses the rest. -/
theorem next_of_unbalanced {s : Splitter} {t : Token} {ts : List Token}
    (h : s.pending.dropWhile Token.isBlank = t :: ts) (hcut : cut 0 (t :: ts) = none)
    (hb : balance (t :: ts) ≠ 0) :
    s.next = (some (.error (.unbalancedParentheses (balance (t :: ts)))), s.done) := by
  unfold next
  split
  · next h' => rw [h] at h'; cases h'
  · next h' =>
    rw [h] at h'
    cases h'
    simp only [hcut]
    rw [if_pos hb]

/-- A call that finds no semicolon gives all that is left. -/
theorem next_of_last {s : Splitter} {t : Token} {ts : List Token}
    (h : s.pending.dropWhile Token.isBlank = t :: ts) (hcut : cut 0 (t :: ts) = none)
    (hb : balance (t :: ts) = 0) :
    s.next
      = (some (s.give ⟨t.start, textOf (t :: ts)⟩ []).1,
          (s.give ⟨t.start, textOf (t :: ts)⟩ []).2) := by
  unfold next
  split
  · next h' => rw [h] at h'; cases h'
  · next h' =>
    rw [h] at h'
    cases h'
    simp only [hcut]
    rw [if_neg (not_not_intro hb)]

/-- **A call finds only blanks, a semicolon, open parentheses or the last statement.** -/
theorem next_cases (s : Splitter) :
    (s.pending.dropWhile Token.isBlank = [] ∧ s.next = (none, s.done)) ∨
    ∃ t ts, s.pending.dropWhile Token.isBlank = t :: ts ∧
      ((∃ g rest, cut 0 (t :: ts) = some (g, rest) ∧
          s.next = (some (s.give ⟨t.start, textOf g⟩ rest).1,
            (s.give ⟨t.start, textOf g⟩ rest).2)) ∨
        (cut 0 (t :: ts) = none ∧ balance (t :: ts) ≠ 0 ∧
          s.next = (some (.error (.unbalancedParentheses (balance (t :: ts)))), s.done)) ∨
        (cut 0 (t :: ts) = none ∧ balance (t :: ts) = 0 ∧
          s.next = (some (s.give ⟨t.start, textOf (t :: ts)⟩ []).1,
            (s.give ⟨t.start, textOf (t :: ts)⟩ []).2))) := by
  cases h : s.pending.dropWhile Token.isBlank with
  | nil => exact Or.inl ⟨rfl, next_of_blanks h⟩
  | cons t ts =>
    refine Or.inr ⟨t, ts, rfl, ?_⟩
    cases hcut : cut 0 (t :: ts) with
    | some r => exact Or.inl ⟨r.1, r.2, rfl, next_of_cut h hcut⟩
    | none =>
      by_cases hb : balance (t :: ts) = 0
      · exact Or.inr (Or.inr ⟨rfl, hb, next_of_last h hcut hb⟩)
      · exact Or.inr (Or.inl ⟨rfl, hb, next_of_unbalanced h hcut hb⟩)

/-! ## What calls keep -/

theorem dialect_give (s : Splitter) (st : Statement) (rest : List Token) :
    (s.give st rest).2.dialect = s.dialect := by
  unfold give
  split <;> rfl

theorem pending_give (s : Splitter) (st : Statement) (rest : List Token) :
    (s.give st rest).2.pending <:+ rest := by
  unfold give
  split
  · exact List.suffix_refl rest
  · exact List.nil_suffix

/-- A call leaves an end of the tokens, and the dialect. -/
theorem next_keeps (s : Splitter) :
    s.next.2.dialect = s.dialect ∧ s.next.2.pending <:+ s.pending := by
  have hdrop : s.pending.dropWhile Token.isBlank <:+ s.pending := List.dropWhile_suffix _
  rcases next_cases s with ⟨-, hn⟩ | ⟨t, ts, hp, ⟨g, rest, hcut, hn⟩ | ⟨-, -, hn⟩ | ⟨-, -, hn⟩⟩
  · rw [hn]
    exact ⟨rfl, List.nil_suffix⟩
  · rw [hn]
    refine ⟨dialect_give s _ rest, (pending_give s _ rest).trans ?_⟩
    have hrest : rest <:+ t :: ts := ⟨g, cut_append hcut⟩
    exact hrest.trans (hp ▸ hdrop)
  · rw [hn]
    exact ⟨rfl, List.nil_suffix⟩
  · rw [hn]
    exact ⟨dialect_give s _ [], (pending_give s _ []).trans List.nil_suffix⟩

/-- **Along all calls the tokens still to be read are an end of those at the start.** -/
theorem pending_after (s : Splitter) (k : Nat) : (s.after k).pending <:+ s.pending := by
  induction k generalizing s with
  | zero => exact List.suffix_refl _
  | succ k ih => exact (ih s.next.2).trans (next_keeps s).2

/-! ## The text of a statement -/

/-- The text of the statement that an answer gives or refuses to copy from the input. -/
def told : Option (Except Error Statement) → Option Text
  | some (.ok st) => some st.text
  | some (.error (.unsupportedStatement text)) => some text
  | _ => none

theorem fst_give (s : Splitter) (st : Statement) (rest : List Token) :
    (s.give st rest).1 = check s.dialect st := by
  unfold give
  split
  · next h => exact h.symm
  · next h => exact h.symm

/-- The answer about a statement tells its text. -/
theorem told_give (s : Splitter) (st : Statement) (rest : List Token) :
    told (some (s.give st rest).1) = some st.text := by
  rw [fst_give, check]
  split <;> rfl

/-- **What an answer tells is the text of some tokens in a row.** -/
theorem exists_tokens_of_told {s : Splitter} {k : Nat} {text : Text}
    (h : told (s.answer k) = some text) :
    ∃ pre g post, s.pending = pre ++ g ++ post ∧ text = textOf g := by
  obtain ⟨pre, hpre⟩ := pending_after s k
  have hdrop := List.takeWhile_append_dropWhile (p := Token.isBlank) (l := (s.after k).pending)
  have hrun : ∀ {g rest : List Token},
      g ++ rest = (s.after k).pending.dropWhile Token.isBlank →
      s.pending = pre ++ (s.after k).pending.takeWhile Token.isBlank ++ g ++ rest := by
    intro g rest hg
    rw [← hpre, List.append_assoc, List.append_assoc, hg, hdrop]
  rw [answer] at h
  rcases next_cases (s.after k) with
    ⟨-, hn⟩ | ⟨t, ts, hp, ⟨g, rest, hcut, hn⟩ | ⟨-, -, hn⟩ | ⟨-, -, hn⟩⟩
  · rw [hn] at h
    cases h
  · rw [hn, told_give] at h
    cases h
    exact ⟨_, g, rest, hrun (by rw [cut_append hcut, hp]), rfl⟩
  · rw [hn] at h
    cases h
  · rw [hn, told_give] at h
    cases h
    exact ⟨_, t :: ts, [], hrun (by rw [List.append_nil, hp]), rfl⟩

end Splitter

end SqlText
