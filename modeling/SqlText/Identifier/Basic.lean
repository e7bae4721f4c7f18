import SqlText.Error
import SqlText.Identifier.Reserved
import SqlText.Text.LetterCase

/-!
# Identifiers

A name that consists of small letters, digits and underscores, does not start with a digit and is no
reserved word is written bare; any other name is written in double quotes, with its own double
quotes doubled. Reading folds a bare name to lower case, as the server does, and takes a quoted name
as it stands.

A qualified name is a schema and a name with a dot between them. A name without a schema belongs to
the schema `public`.
-/

namespace SqlText

namespace Identifier

/-! ## One name -/

/-- Whether a character can start a name that is written bare. -/
def isBareStart (c : Char) : Bool := c == '_' || c.isLower

/-- Whether a character can continue a name that is written bare. -/
def isBarePart (c : Char) : Bool := c == '_' || c.isLower || c.isDigit

/-- Whether a name is written bare. -/
def isBare (name : Text) : Bool :=
  match name with
  | [] => false
  | c :: t => isBareStart c && t.all isBarePart && !isReserved name

/-- Writes a name. -/
def quote (name : Text) : Text :=
  if isBare name then name else '"' :: Text.double '"' name ++ ['"']

/-- Whether the double quotes of a text come in pairs. -/
def quotesPaired : Text → Bool
  | [] => true
  | [c] => c != '"'
  | c :: d :: t => if c = '"' then d == '"' && quotesPaired t else quotesPaired (d :: t)

/-- Whether a text stands in double quotes. -/
def isQuoted (t : Text) : Bool := 1 < t.length && t.head? == some '"' && t.getLast? == some '"'

/-- Reads a name. -/
def unquote (t : Text) : Except Error Text :=
  if isQuoted t then
    let inner := t.tail.dropLast
    if quotesPaired inner then .ok (Text.undouble '"' inner) else .error (.malformedIdentifier t)
  else if t.contains '"' then .error (.malformedIdentifier t)
  else .ok (Text.fold t)

/-! ## Qualified names -/

/-- The schema of a name that has none. -/
def defaultSchema : Text := "public".toList

/-- The schema and the name that a table's name consists of; the first dot divides them. -/
def parts (name : Text) : Text × Text :=
  match name.dropWhile (· != '.') with
  | [] => (defaultSchema, name)
  | _ :: rest => (name.takeWhile (· != '.'), rest)

/-- A table's name with its schema. -/
def qualified (name : Text) : Text :=
  if name.contains '.' then name else defaultSchema ++ '.' :: name

/-- Writes a table's name with its schema, each part by itself. -/
def quoteQualified (name : Text) : Text :=
  let (schema, table) := parts name
  quote schema ++ '.' :: quote table

/-- Splits a text at its first dot outside double quotes; `inside` says whether it starts inside. -/
def splitAtDot (inside : Bool) : Text → Option (Text × Text)
  | [] => none
  | c :: t =>
    if c = '.' ∧ inside = false then some ([], t)
    else
      let inside := if c = '"' then !inside else inside
      (splitAtDot inside t).map fun r => (c :: r.1, r.2)

/-- Reads a qualified name; a name without a schema stays without. -/
def unquoteQualified (t : Text) : Except Error Text :=
  match splitAtDot false t with
  | none => unquote t
  | some (schema, name) => do
    let schema ← unquote schema
    let name ← unquote name
    return schema ++ '.' :: name

end Identifier

end SqlText
