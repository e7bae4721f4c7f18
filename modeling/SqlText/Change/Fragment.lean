import SqlText.Change.Operation
import SqlText.Identifier.Basic
import SqlText.Literal.Basic
import SqlText.Row
import SqlText.Token.Cursor

/-!
# Change fragments

A log of row changes keeps, for each change, its operation and the end of the statement that would
make it again: `(id, data) values (1, null)` for an insert, `data = 'x' where id = 1` for an update,
`id = 1` for a delete. Reading such a fragment gives back the columns and values of the row.

The fragment is read as tokens, blanks left out and strings with escapes. First the grammar is
checked, and only then are names and values unquoted, data before keys.

## Main statements

* `pair_lt`: what follows `column = value` is shorter, so reading ends.

## Termination

`assignments` and `predicate` drop a pair at each step (`termination_by ts.length`); the lists of an
insert are structural.
-/

namespace SqlText

namespace Fragment

/-- A column and its value as they stand in a fragment. -/
abbrev Pair := Text × Text

/-! ## Single tokens -/

/-- The error of a token that does not fit. -/
def unexpected (expected : Expected) (t : Token) : Error := .unexpectedToken expected t.text

/-- Reads a token that has a property. -/
def token (expected : Expected) (fits : Token → Bool) :
    List Token → Except Error (Token × List Token)
  | [] => .error (.unexpectedEnd expected)
  | t :: ts => if fits t then .ok (t, ts) else .error (unexpected expected t)

/-- Whether a token can name a column. -/
def isColumn (t : Token) : Bool := t.kind.isIdentifier

/-- Whether a token can be a value: a literal, or a bare word such as `null`. -/
def isValue (t : Token) : Bool := t.kind.isLiteral || t.kind == .identifier

/-- Reads the name of a column. -/
def column (ts : List Token) : Except Error (Token × List Token) := token .columnName isColumn ts

/-- Reads a value. -/
def value (ts : List Token) : Except Error (Token × List Token) := token .literalValue isValue ts

/-- Reads an opening parenthesis. -/
def openParen (ts : List Token) : Except Error (Token × List Token) :=
  token .openParen (·.isSymbol ['(']) ts

/-- Reads a closing parenthesis. -/
def closeParen (ts : List Token) : Except Error (Token × List Token) :=
  token .closeParen (·.isSymbol [')']) ts

/-- Reads a comma. -/
def comma (ts : List Token) : Except Error (Token × List Token) :=
  token .comma (·.isSymbol [',']) ts

/-- Reads an equals sign. -/
def equals (ts : List Token) : Except Error (Token × List Token) :=
  token .equals (·.isSymbol ['=']) ts

/-- Reads the word `values`. -/
def valuesWord (ts : List Token) : Except Error (Token × List Token) :=
  token .values (·.isKeyword "values".toList) ts

/-- Checks that no token is left. -/
def atEnd : List Token → Except Error Unit
  | [] => .ok ()
  | t :: _ => .error (unexpected .endOfFragment t)

theorem token_lt {expected : Expected} {fits : Token → Bool} {ts rest : List Token} {t : Token}
    (h : token expected fits ts = .ok (t, rest)) : rest.length < ts.length := by
  unfold token at h
  split at h
  · cases h
  · split at h
    · cases h; simp
    · cases h

/-! ## Inserts -/

/-- Reads columns with commas between them, up to the closing parenthesis. -/
def columnList : List Token → Except Error (List Text × List Token)
  | [] => .error (.unexpectedEnd .columnName)
  | [c] =>
    if isColumn c then .error (.unexpectedEnd .commaOrCloseParen)
    else .error (unexpected .columnName c)
  | c :: t :: ts =>
    if isColumn c then
      if t.isSymbol [')'] then .ok ([c.text], ts)
      else if t.isSymbol [','] then (columnList ts).map fun r => (c.text :: r.1, r.2)
      else .error (unexpected .commaOrCloseParen t)
    else .error (unexpected .columnName c)

/-- Reads so many values with commas between them, and the closing parenthesis behind the last. -/
def valueList : Nat → List Token → Except Error (List Text × List Token)
  | 0, ts => .ok ([], ts)
  | n + 1, ts => do
    let (v, ts) ← value ts
    let (_, ts) ← if n = 0 then closeParen ts else comma ts
    let (vs, ts) ← valueList n ts
    return (v.text :: vs, ts)

/-- Reads the fragment of an insert: a list of columns and as many values. -/
def insertion (ts : List Token) : Except Error (List Pair) := do
  let (_, ts) ← openParen ts
  let (columns, ts) ← columnList ts
  let (_, ts) ← valuesWord ts
  let (_, ts) ← openParen ts
  let (values, ts) ← valueList columns.length ts
  atEnd ts
  return columns.zip values

/-! ## Pairs -/

/-- Reads `column = value`. -/
def pair (ts : List Token) : Except Error (Pair × List Token) := do
  let (c, ts) ← column ts
  let (_, ts) ← equals ts
  let (v, ts) ← value ts
  return ((c.text, v.text), ts)

/-- What follows a pair is shorter. -/
theorem pair_lt {ts rest : List Token} {p : Pair} (h : pair ts = .ok (p, rest)) :
    rest.length < ts.length := by
  simp only [pair, bind, Except.bind, pure, Except.pure] at h
  split at h
  · cases h
  · next r₁ h₁ =>
    split at h
    · cases h
    · next r₂ h₂ =>
      split at h
      · cases h
      · next r₃ h₃ =>
        cases h
        have := token_lt h₁
        have := token_lt h₂
        have := token_lt h₃
        omega

/-- Reads pairs with commas between them, up to the word `where`. -/
def assignments (ts : List Token) : Except Error (List Pair × List Token) :=
  match _ : pair ts with
  | .error e => .error e
  | .ok (_, []) => .error (.unexpectedEnd .commaOrWhere)
  | .ok (p, t :: rest) =>
    if t.isKeyword "where".toList then .ok ([p], rest)
    else if t.isSymbol [','] then (assignments rest).map fun r => (p :: r.1, r.2)
    else .error (unexpected .commaOrWhere t)
termination_by ts.length
decreasing_by
  rename_i h _ _
  have := pair_lt h
  simp only [List.length_cons] at this
  omega

/-- Reads pairs with the word `and` between them, up to the end. -/
def predicate (ts : List Token) : Except Error (List Pair) :=
  match _ : pair ts with
  | .error e => .error e
  | .ok (p, []) => .ok [p]
  | .ok (p, t :: rest) =>
    if t.isKeyword "and".toList then (predicate rest).map (p :: ·)
    else .error (unexpected .andOrEnd t)
termination_by ts.length
decreasing_by
  rename_i h _
  have := pair_lt h
  simp only [List.length_cons] at this
  omega

/-! ## Fragments -/

/-- The pairs of a fragment: those that carry data and those that identify the row. -/
structure Pairs where
  data : List Pair
  keys : List Pair
  deriving DecidableEq, Repr

/-- Reads the grammar of an operation's fragment. -/
def pairs (op : Operation) (ts : List Token) : Except Error Pairs :=
  match op with
  | .insert => do return ⟨← insertion ts, []⟩
  | .update => do
    let (data, ts) ← assignments ts
    return ⟨data, ← predicate ts⟩
  | .delete => do return ⟨[], ← predicate ts⟩

/-- Adds a pair to a row: its unquoted column with its unquoted value. -/
def addPair (r : Row) (p : Pair) : Except Error Row := do
  let column ← Identifier.unquote p.1
  let value ← Literal.unquote false p.2
  r.add column value

/-- The row of some pairs. -/
def toRow (ps : List Pair) : Except Error Row := ps.foldlM addPair Row.empty

/-- What a fragment says about a row. -/
inductive Content
  /-- One row: the data columns, then the key columns. -/
  | merged (row : Row)
  /-- The key columns apart from the data columns. -/
  | split (keys data : Row)
  deriving DecidableEq

/-- The one row of a fragment, if its keys were not kept apart. -/
def Content.merged? : Content → Option Row
  | merged row => some row
  | split .. => none

/-- The tokens of a fragment. -/
def tokens (sql : Text) : List Token := tokenize { ignoreBlanks := true } sql

/-- Reads a fragment. -/
def read (op : Operation) (splitKeys : Bool) (sql : Text) : Except Error Content := do
  let ps ← pairs op (tokens sql)
  let data ← toRow ps.data
  let keys ← toRow ps.keys
  if splitKeys then return .split keys data
  else return .merged (← data.append keys)

end Fragment

end SqlText
