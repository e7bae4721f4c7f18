import SqlText.Error
import SqlText.Literal.Escape
import SqlText.Token.Rule

/-!
# Literals

A value is written as `null` or as a string in single quotes. A text that holds a backslash is
written in the extended form `E'…'` with its backslashes doubled, so that every literal means the
same whether plain strings have escapes or not.

Reading takes the three forms of strings (plain, extended and dollar-quoted) and the word `null`;
any other text, such as a number, stands for itself.
-/

namespace SqlText

namespace Literal

/-! ## Writing -/

/-- The word for the missing value. -/
def null : Text := "null".toList

/-- A character inside a written string. -/
def quoteChar (c : Char) : Text :=
  if c = '\'' then ['\'', '\''] else if c = '\\' then ['\\', '\\'] else [c]

/-- A text as a string. -/
def quoteText (t : Text) : Text :=
  (if t.contains '\\' then ['E'] else []) ++ '\'' :: t.flatMap quoteChar ++ ['\'']

/-- A value as a literal. -/
def quote : Option Text → Text
  | none => null
  | some t => quoteText t

/-! ## Reading -/

/--
Whether a quote in the body of a string stands alone: it is not doubled and, where the string has
escapes, not escaped.
-/
def hasLoneQuote (escapes : Bool) : Text → Bool
  | [] => false
  | [c] => c == '\''
  | c :: d :: t =>
    if escapes && c == '\\' then hasLoneQuote escapes t
    else if c = '\'' then
      if d = '\'' then hasLoneQuote escapes t else true
    else hasLoneQuote escapes (d :: t)

/-- The body of a string: what stands between its first `opening` characters and its last quote. -/
def body (opening : Nat) (escapes : Bool) (t : Text) : Except Error Text :=
  if t.length ≤ opening ∨ t.getLast? ≠ some '\'' then .error (.malformedLiteral t .unterminated)
  else
    let inner := (t.drop opening).dropLast
    if hasLoneQuote escapes inner then .error (.malformedLiteral t .loneQuote) else .ok inner

/-- Reads a string with escapes. -/
def unquoteExtended (opening : Nat) (t : Text) : Except Error Text :=
  match body opening true t with
  | .error e => .error e
  | .ok inner =>
    let d := Escape.decode true inner
    if d.dangling then .error (.malformedLiteral t .danglingBackslash) else .ok d.text

/-- Reads a string without escapes. -/
def unquoteStandard (t : Text) : Except Error Text :=
  match body 1 false t with
  | .error e => .error e
  | .ok inner => .ok (Text.undouble '\'' inner)

/-- Reads a dollar-quoted string. A text that opens no dollar quote stands for itself. -/
def unquoteDollar (t : Text) : Except Error Text :=
  match Rule.dollarTag t with
  | none => .ok t
  | some n =>
    if 2 * n ≤ t.length ∧ (t.take n).isSuffixOf t then .ok ((t.drop n).take (t.length - 2 * n))
    else .error (.malformedLiteral t .unclosedTag)

/-- Reads a literal as a value. -/
def unquote (standardQuoting : Bool) (t : Text) : Except Error (Option Text) :=
  match t with
  | '\'' :: _ => (if standardQuoting then unquoteStandard t else unquoteExtended 1 t).map some
  | 'E' :: '\'' :: _ => (unquoteExtended 2 t).map some
  | 'e' :: '\'' :: _ => (unquoteExtended 2 t).map some
  | '$' :: _ => (unquoteDollar t).map some
  | _ => .ok (if Text.sameWord t null then none else some t)

end Literal

end SqlText
