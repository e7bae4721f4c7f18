import SqlText.ArrayLiteral
import SqlText.Change.Fragment
import SqlText.Change.Statement
import SqlText.CopyField
import SqlText.Statement

/-!
# Checks

The laws that tie the parts of the library together, each as a test of one input: tokens cover their
source, what was quoted is read back, statements are what blanks leave over, and a row comes back
from the statement written for it.
-/

namespace SqlText

open Text

namespace Check

/-! ## Tokens -/

/-- Whether a token stands where it says, behind `previous` bytes already covered. -/
def tokenFits (o : Options) (source : Text) (previous : Nat) (t : Token) : Bool :=
  !t.text.isEmpty
    && slice? source t.start t.stop == some t.text
    && previous ≤ t.start
    && (if o.ignoreBlanks then !t.isBlank else t.start == previous)
    && (!o.showLocation || (slice? source 0 t.stop).map List.length == t.location)

/-- Whether tokens stand one behind the other, and cover the source where blanks are kept. -/
def tokensFit (o : Options) (source : Text) (previous : Nat) : List Token → Bool
  | [] => o.ignoreBlanks || previous == byteSize source
  | t :: ts => tokenFits o source previous t && tokensFit o source t.stop ts

/-- Whether the tokens of a source cover it. -/
def tokens (o : Options) (source : Text) : Bool := tokensFit o source 0 (tokenize o source)

/-! ## Quoting -/

/-- The kinds of the tokens of a text. -/
def kinds (d : Dialect) (t : Text) : List Kind := (tokenize { dialect := d } t).map Token.kind

/-- Whether a result is the given value. -/
def isOk {α : Type} [BEq α] (r : Except Error α) (a : α) : Bool :=
  match r with
  | .ok b => b == a
  | .error _ => false

/-- Whether a literal is one token and is read back, with and without escapes in plain strings. -/
def literal (v : Option Text) : Bool :=
  let quoted := Literal.quote v
  [false, true].all fun standard =>
    isOk (Literal.unquote standard quoted) v
      && kinds { standardQuoting := standard } quoted == [if v.isSome then .string else .identifier]

/-- Whether a name is one token and is read back, alone and behind a schema. -/
def identifier (name : Text) : Bool :=
  let quoted := Identifier.quote name
  let inSchema := "Schema.".toList ++ name
  let qualified := Identifier.quoteQualified inSchema
  isOk (Identifier.unquote quoted) name
    && [[.identifier], [.quotedIdentifier]].contains (kinds .legacy quoted)
    && (name.contains '.'
      || isOk (Identifier.unquoteQualified qualified) inSchema
        && kinds { fullyQualified := true } qualified == [.qualifiedIdentifier])

/-- Whether an array is read back. -/
def array (values : List (Option Text)) : Bool :=
  isOk (ArrayLiteral.unquote (ArrayLiteral.quote values)) values

/-- Whether a field of a COPY line is read back. -/
def copyField (v : Option Text) : Bool := CopyField.unquote (CopyField.quote v) == v

/-! ## Statements -/

/-- Whether all tokens of a text are blank. -/
def allBlank (d : Dialect) (t : Text) : Bool := (tokenize { dialect := d } t).all Token.isBlank

/-- Whether a statement stands behind `previous` bytes, with only blanks between. -/
def statementFits (d : Dialect) (source : Text) (previous : Nat) (s : Statement) : Bool :=
  !s.text.isEmpty
    && (tokenize { dialect := d } s.text).head?.any (!·.isBlank)
    && previous ≤ s.start
    && (slice? source previous s.start).any (allBlank d)

/-- Whether statements stand one behind the other, and nothing follows an error. -/
def statementsFit (d : Dialect) (source : Text) (previous : Nat) :
    List (Except Error Statement) → Bool
  | [] => true
  | .error _ :: rest => rest.isEmpty
  | .ok s :: rest =>
    statementFits d source previous s && statementsFit d source (s.start + byteSize s.text) rest

/-- Whether the statements of a script are what its blanks leave over. -/
def statements (standardQuoting : Bool) (sql : Text) : Bool :=
  statementsFit { standardQuoting := standardQuoting } sql 0 (split standardQuoting sql)

/-! ## Rows -/

/-- The statement of a row's change in the table `t`, and how it starts. -/
def changeText (op : Operation) (r : Row) (keys : List Text) : Except Error (Text × Text) :=
  let table : Text := ['t']
  match op with
  | .insert => .ok (Change.insert r.entries table, "insert into public.t ".toList)
  | .update => do return (← Change.update r.entries table keys, "update only public.t set ".toList)
  | .delete => do
    return (← Change.delete r.entries table keys, "delete from only public.t where ".toList)

/-- The fragment of a row's change: its statement without the start and the semicolon. -/
def fragmentText? (op : Operation) (r : Row) (keys : List Text) : Option Text :=
  match changeText op r keys with
  | .error _ => none
  | .ok (statement, head) => do
    let rest ← dropHead? head statement
    if rest.getLast? = some ';' then some rest.dropLast else none

/-- Whether a row comes back, in its order, from the fragment of its change. -/
def row (op : Operation) (r : Row) (keys : List Text) : Bool :=
  match fragmentText? op r keys with
  | none => false
  | some fragment => isOk (Fragment.read op false fragment) (.merged r)

/-- The keys by which a merged row is changed again: the last column or all of them. -/
def keysOf (op : Operation) (r : Row) : List Text :=
  match op with
  | .insert => []
  | .update => r.columns.getLast?.toList
  | .delete => r.columns

/-- Whether the row of a fragment comes back. A fragment that is refused passes. -/
def fragment (op : Operation) (splitKeys : Bool) (sql : Text) : Bool :=
  match Fragment.read op splitKeys sql with
  | .error _ => true
  | .ok (.merged r) => row op r (keysOf op r)
  | .ok (.split keys data) =>
    (op != .insert || keys.entries.isEmpty) && (op != .delete || data.entries.isEmpty)

end Check

end SqlText
