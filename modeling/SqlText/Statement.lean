import SqlText.Error
import SqlText.Token.Cursor

/-!
# Statements of a script

A script is cut into statements at its semicolons. Blanks before a statement belong to none; all
else, up to and including the semicolon, is kept as it stands. A semicolon inside a literal or a
comment is part of that token, and one inside parentheses ends nothing. The last statement may lack
its semicolon.

Two scripts have no statements to give: one whose parentheses do not balance, which is noticed at
its end, and one that copies rows from the input that follows the statement. After such an error the
splitter gives nothing more.

## Main statements

* `Splitter.next_lt`: each statement leaves fewer tokens, so splitting ends.
* `Statement.cut_append`: a cut keeps all tokens in order.

## Termination

The cut is structural on the tokens, and `Splitter.items` drops tokens at each step.
-/

namespace SqlText

/-- A statement of a script: where it starts, in bytes, and its text. -/
structure Statement where
  start : Nat
  text : Text
  deriving DecidableEq, Repr

namespace Statement

/-- The text that tokens make up. -/
def textOf (ts : List Token) : Text := ts.flatMap Token.text

/-! ## Parentheses -/

/-- What a token adds to the depth of open parentheses. -/
def weight (t : Token) : Int :=
  if t.isSymbol ['('] then 1 else if t.isSymbol [')'] then -1 else 0

/-- The depth that tokens leave: open parentheses less closed ones. -/
def balance : List Token → Int
  | [] => 0
  | t :: ts => weight t + balance ts

/-- Cuts tokens behind the first semicolon at depth 0, where `depth` is the depth before them. -/
def cut (depth : Int) : List Token → Option (List Token × List Token)
  | [] => none
  | t :: ts =>
    if t.isSymbol [';'] ∧ depth = 0 then some ([t], ts)
    else (cut (depth + weight t) ts).map fun r => (t :: r.1, r.2)

/-- A cut keeps all tokens in order. -/
theorem cut_append {depth : Int} {ts s r : List Token} (h : cut depth ts = some (s, r)) :
    s ++ r = ts := by
  induction ts generalizing depth s with
  | nil => cases h
  | cons t ts ih =>
    rw [cut] at h
    split at h
    · cases h; rfl
    · obtain ⟨⟨s', r'⟩, hc, he⟩ := Option.map_eq_some_iff.1 h
      cases he
      simp [ih hc]

/-- The part before a cut holds at least the semicolon. -/
theorem cut_ne_nil {depth : Int} {ts s r : List Token} (h : cut depth ts = some (s, r)) :
    s ≠ [] := by
  cases ts with
  | nil => cases h
  | cons t ts =>
    rw [cut] at h
    split at h
    · cases h; simp
    · obtain ⟨⟨s', r'⟩, -, he⟩ := Option.map_eq_some_iff.1 h
      cases he
      simp

/-! ## Copying from the input -/

/-- Whether the word `from` stands directly before the word `stdin`. -/
def readsInput : List Token → Bool
  | a :: b :: ts =>
    (a.isKeyword "from".toList && b.isKeyword "stdin".toList) || readsInput (b :: ts)
  | _ => false

/--
Whether a statement copies rows from the input that follows it: it starts with the word `copy`, and
`from stdin` comes later. Only tokens count, so words in literals and comments do not.
-/
def copiesFromInput (d : Dialect) (text : Text) : Bool :=
  match tokenize { dialect := d, ignoreBlanks := true } text with
  | [] => false
  | t :: ts => t.isKeyword "copy".toList && readsInput ts

/-- Refuses a statement that copies rows from the input. -/
def check (d : Dialect) (s : Statement) : Except Error Statement :=
  if copiesFromInput d s.text then .error (.unsupportedStatement s.text) else .ok s

end Statement

/-! ## Splitting -/

/-- A script in the course of being split. -/
structure Splitter where
  dialect : Dialect
  /-- The tokens of the script that belong to no statement given so far. -/
  pending : List Token
  deriving DecidableEq, Repr

namespace Splitter

open Statement

/-- The splitter at the start of a script. -/
def start (standardQuoting : Bool) (sql : Text) : Splitter :=
  let d : Dialect := { standardQuoting := standardQuoting }
  ⟨d, tokenize { dialect := d } sql⟩

/-- The splitter that has nothing more to give. -/
def done (s : Splitter) : Splitter := { s with pending := [] }

/-- Gives a statement, or the error that refuses it and ends the splitting. -/
def give (s : Splitter) (statement : Statement) (rest : List Token) :
    Except Error Statement × Splitter :=
  match check s.dialect statement with
  | .ok statement => (.ok statement, { s with pending := rest })
  | .error e => (.error e, s.done)

/-- The next statement of the script, if there is one. -/
def next (s : Splitter) : Option (Except Error Statement) × Splitter :=
  match s.pending.dropWhile Token.isBlank with
  | [] => (none, s.done)
  | t :: ts =>
    match cut 0 (t :: ts) with
    | some (statement, rest) =>
      let (item, s') := s.give ⟨t.start, textOf statement⟩ rest
      (some item, s')
    | none =>
      let depth := balance (t :: ts)
      if depth ≠ 0 then (some (.error (.unbalancedParentheses depth)), s.done)
      else
        let (item, s') := s.give ⟨t.start, textOf (t :: ts)⟩ []
        (some item, s')

theorem length_give_le (s : Splitter) (statement : Statement) (rest : List Token) :
    (s.give statement rest).2.pending.length ≤ rest.length := by
  unfold give
  split <;> simp [done]

/-- A statement leaves fewer tokens. -/
theorem next_lt {s s' : Splitter} {item : Except Error Statement} (h : s.next = (some item, s')) :
    s'.pending.length < s.pending.length := by
  have hdrop := (List.dropWhile_sublist (l := s.pending) Token.isBlank).length_le
  unfold next at h
  split at h
  · cases h
  · next t ts hp =>
    rw [hp, List.length_cons] at hdrop
    split at h
    · next statement rest hc =>
      have hlen := congrArg List.length (cut_append hc)
      have hpos := List.length_pos_iff.2 (cut_ne_nil hc)
      have hle := length_give_le s ⟨t.start, textOf statement⟩ rest
      simp only [List.length_append, List.length_cons] at hlen
      simp only [Prod.mk.injEq] at h
      rw [← h.2]
      omega
    · simp only at h
      split at h
      · simp only [Prod.mk.injEq] at h
        rw [← h.2]
        simp only [done, List.length_nil]
        omega
      · have hle := length_give_le s ⟨t.start, textOf (t :: ts)⟩ []
        simp only [Prod.mk.injEq] at h
        rw [← h.2]
        simp only [List.length_nil] at hle
        omega

/-- All that the splitter still has to give. -/
def items (s : Splitter) : List (Except Error Statement) :=
  match _ : s.next with
  | (none, _) => []
  | (some item, s') => item :: items s'
termination_by s.pending.length
decreasing_by
  rename_i h
  exact next_lt h

end Splitter

/-- The statements of a script, in order, up to the first error. -/
def split (standardQuoting : Bool) (sql : Text) : List (Except Error Statement) :=
  (Splitter.start standardQuoting sql).items

end SqlText
