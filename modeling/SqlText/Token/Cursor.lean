import SqlText.Token.Rule

/-!
# Reading tokens

A cursor stands between two tokens of a source and hands out the next one. Reading a source to its
end gives its tokens.

A cursor keeps the text it has not read, with the bytes and the characters before it. So the offsets
of a token come from the lengths of the lexemes before it, and no offset is ever looked up in the
source.

## Main statements

* `Cursor.advance?_lt`, `Cursor.next_lt`: reading a token leaves a shorter text, so reading ends.
* `Cursor.advance?_text`: the text of a token and the text left over make up the text before.

## Termination

`Cursor.next`, `Cursor.tokens` and `Cursor.drain` drop a lexeme at each step
(`termination_by c.rest.length`).
-/

namespace SqlText

open Text

/-- A place between two tokens of a source. -/
structure Cursor where
  options : Options
  /-- The text not yet read. -/
  rest : Text
  /-- The bytes before the cursor. -/
  position : Nat
  /-- The characters before the cursor. -/
  seen : Nat
  deriving DecidableEq, Repr

namespace Cursor

/-- The cursor at the start of a source. -/
def start (o : Options) (source : Text) : Cursor := ⟨o, source, 0, 0⟩

/-- Reads the lexeme at the cursor, blank or not. -/
def advance? (c : Cursor) : Option (Token × Cursor) :=
  (scan? c.options.dialect c.rest).map fun (kind, n) =>
    let text := c.rest.take n
    let position := c.position + byteSize text
    let seen := c.seen + text.length
    let location := if c.options.showLocation then some seen else none
    (⟨kind, text, c.position, position, location⟩,
      { c with rest := c.rest.drop n, position := position, seen := seen })

/-- Reading a lexeme leaves a shorter text. -/
theorem advance?_lt {c c' : Cursor} {t : Token} (h : c.advance? = some (t, c')) :
    c'.rest.length < c.rest.length := by
  obtain ⟨⟨k, n⟩, hs, he⟩ := Option.map_eq_some_iff.1 h
  have := scan?_bounds hs
  simp only [Prod.mk.injEq] at he
  rw [← he.2]
  simp only [List.length_drop]
  omega

/-- The text of a token and the text after it make up the text before. -/
theorem advance?_text {c c' : Cursor} {t : Token} (h : c.advance? = some (t, c')) :
    t.text ++ c'.rest = c.rest := by
  obtain ⟨⟨k, n⟩, -, he⟩ := Option.map_eq_some_iff.1 h
  simp only [Prod.mk.injEq] at he
  rw [← he.1, ← he.2]
  exact List.take_append_drop n c.rest

/-- The cursor is at the end exactly when there is nothing left to read. -/
theorem advance?_eq_none_iff {c : Cursor} : c.advance? = none ↔ c.rest = [] := by
  rw [advance?, Option.map_eq_none_iff, scan?_eq_none_iff]

/--
Reads the next token that the options ask for, and moves the cursor behind it. Blanks that are left
out are read on the way, also when no token follows them.
-/
def next (c : Cursor) : Option Token × Cursor :=
  match _ : c.advance? with
  | none => (none, c)
  | some (t, c') => if c.options.ignoreBlanks && t.isBlank then next c' else (some t, c')
termination_by c.rest.length
decreasing_by
  rename_i h _
  exact advance?_lt h

/-- A token leaves a shorter text. -/
theorem next_lt {c c' : Cursor} {t : Token} (h : c.next = (some t, c')) :
    c'.rest.length < c.rest.length := by
  fun_induction next c with
  | case1 => cases h
  | case2 c t₁ c₁ hc _ ih => exact Nat.lt_trans (ih h) (advance?_lt hc)
  | case3 c t₁ c₁ hc => cases h; exact advance?_lt hc

/-- All tokens from the cursor on. -/
def tokens (c : Cursor) : List Token :=
  match _ : c.next with
  | (none, _) => []
  | (some t, c') => t :: tokens c'
termination_by c.rest.length
decreasing_by
  rename_i h
  exact next_lt h

/-- The cursor after all tokens. -/
def drain (c : Cursor) : Cursor :=
  match _ : c.next with
  | (none, c') => c'
  | (some _, c') => drain c'
termination_by c.rest.length
decreasing_by
  rename_i h
  exact next_lt h

/--
The least and the greatest number of tokens that can still come. A token has at least one byte, so
their number is at most that of the bytes left.
-/
def sizeHint (c : Cursor) : Nat × Nat := (0, byteSize c.rest)

end Cursor

/-- The tokens of a source. -/
def tokenize (o : Options) (source : Text) : List Token := (Cursor.start o source).tokens

/-! ## Reading at an offset -/

/-- What stands at a byte offset of a source. -/
inductive Reading
  /-- The offset is at the end or past it. -/
  | atEnd
  /-- The offset lies inside a character, where no token can start. -/
  | insideCharacter
  /-- A token starts there. -/
  | token (t : Token)
  deriving DecidableEq, Repr

/-- Reads the token at a byte offset of a source. -/
def tokenAt (d : Dialect) (source : Text) (position : Nat) : Reading :=
  if byteSize source ≤ position then .atEnd
  else
    match fromByte? source position with
    | none => .insideCharacter
    | some rest =>
      match (Cursor.mk { dialect := d } rest position 0).advance? with
      | none => .atEnd
      | some (t, _) => .token t

end SqlText
