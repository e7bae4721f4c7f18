import SqlText.Text.Basic

/-!
# Backslash escapes

Inside an extended string a backslash changes the meaning of what follows: `\t`, `\n`, `\r`, `\a`
and `\b` are control characters, one to three octal digits are the character with that code, and any
other character stands for itself. A doubled single quote is one quote, where the surrounding form
doubles them.

## Termination

An escape takes up to four characters, so decoding goes by the length of the text
(`termination_by t.length`).
-/

namespace SqlText

namespace Escape

/-- The value of an octal digit. -/
def octalDigit? (c : Char) : Option Nat :=
  if '0' ≤ c ∧ c ≤ '7' then some (c.toNat - '0'.toNat) else none

/-- Reads up to `more` further octal digits after those that made up `code`. -/
def octal : (more code : Nat) → Text → Nat × Text
  | 0, code, t => (code, t)
  | _ + 1, code, [] => (code, [])
  | more + 1, code, c :: t =>
    match octalDigit? c with
    | some d => octal more (code * 8 + d) t
    | none => (code, c :: t)

theorem octal_length_le (more code : Nat) (t : Text) : (octal more code t).2.length ≤ t.length := by
  fun_induction octal more code t with
  | case1 => simp
  | case2 => simp
  | case3 more code c t d hd ih => simp only [List.length_cons]; omega
  | case4 => simp

/-- What a character that is no octal digit stands for behind a backslash. -/
def meaning (c : Char) : Char :=
  if c = 't' then '\t'
  else if c = 'n' then '\n'
  else if c = 'r' then '\r'
  else if c = 'a' then '\x07'
  else if c = 'b' then '\x08'
  else c

/-- A decoded text, and whether a backslash with nothing behind it was left over at its end. -/
structure Decoded where
  text : Text
  dangling : Bool
  deriving DecidableEq, Repr

/-- Puts a character before a decoded text. -/
def Decoded.push (c : Char) (d : Decoded) : Decoded := { d with text := c :: d.text }

/-- Decodes escapes, and doubled quotes where `doubled` says so. -/
def decode (doubled : Bool) (t : Text) : Decoded :=
  match t with
  | [] => ⟨[], false⟩
  | c :: t =>
    if c = '\\' then
      match t with
      | [] => ⟨[], true⟩
      | e :: t =>
        match octalDigit? e with
        | some d => (decode doubled (octal 2 d t).2).push (Char.ofNat (octal 2 d t).1)
        | none => (decode doubled t).push (meaning e)
    else if doubled && c == '\'' && t.head? == some '\'' then (decode doubled t.tail).push '\''
    else (decode doubled t).push c
termination_by t.length
decreasing_by
  · have := octal_length_le 2 d t
    simp only [List.length_cons]
    omega
  · simp only [List.length_cons]; omega
  · simp only [List.length_tail, List.length_cons]; omega
  · simp only [List.length_cons]; omega

/-- Removes escapes from a text; a backslash left over at the end stays. -/
def unescape (t : Text) : Text :=
  let d := decode false t
  if d.dangling then d.text ++ ['\\'] else d.text

end Escape

end SqlText
