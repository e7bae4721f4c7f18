import SqlText.Identifier.Basic
import SqlText.Literal.Basic

/-!
# Statements from rows

Writes the statement that inserts a row, updates it or deletes it. Tables are written with their
schema, columns as identifiers and values as literals, so that no name and no value can end the
statement or change its meaning.

A field map gives columns other names in the statement: each entry is the name of a column in the
row and its name in the table. Only mapped columns are written, in the order of the map.
-/

namespace SqlText

namespace Change

/-- Columns with their values. A column may stand twice; the first one counts. -/
abbrev Record := List (Text × Option Text)

/-- Names of columns in a record, each with its name in the table. -/
abbrev FieldMap := List (Text × Text)

/-! ## Pieces -/

/-- Texts with a separator between them. -/
def sepBy (separator : String) (ts : List Text) : Text := List.intercalate separator.toList ts

/-- The equation of a column and a value. -/
def equation (e : Text × Option Text) : Text :=
  Identifier.quote e.1 ++ " = ".toList ++ Literal.quote e.2

/-- The equations that a row has to meet. -/
def predicate (keys : Record) : Text := sepBy " and " (keys.map equation)

/-- The statement that inserts a record as it stands. -/
def insertText (table : Text) (r : Record) : Text :=
  "insert into ".toList ++ Identifier.quoteQualified table
    ++ " (".toList ++ sepBy ", " (r.map fun e => Identifier.quote e.1)
    ++ ") values (".toList ++ sepBy ", " (r.map fun e => Literal.quote e.2) ++ ");".toList

/-- The statement that sets columns where keys are met. -/
def updateText (table : Text) (set keys : Record) : Text :=
  "update only ".toList ++ Identifier.quoteQualified table
    ++ " set ".toList ++ sepBy ", " (set.map equation)
    ++ " where ".toList ++ predicate keys ++ [';']

/-- The statement that deletes where keys are met. -/
def deleteText (table : Text) (keys : Record) : Text :=
  "delete from only ".toList ++ Identifier.quoteQualified table
    ++ " where ".toList ++ predicate keys ++ [';']

/-! ## Columns and keys -/

/-- What an association has for a column. -/
def find {α : Type} (entries : List (Text × α)) (column : Text) : Except Error α :=
  match entries.lookup column with
  | some v => .ok v
  | none => .error (.unknownColumn column)

/-- The mapped columns under their new names, with their values. -/
def mapped (r : Record) (m : FieldMap) : Except Error Record :=
  m.mapM fun e => do return (e.2, ← find r e.1)

/-- The key columns with their values, each under the name that `rename` gives it. -/
def keyed (s : KeyedStatement) (rename : Text → Except Error Text) (r : Record)
    (keys : List Text) : Except Error Record :=
  if keys.isEmpty then .error (.missingKeys s)
  else
    keys.mapM fun key => do
      let value ← find r key
      return (← rename key, value)

/-! ## Statements -/

/-- Inserts a record. -/
def insert (r : Record) (table : Text) : Text := insertText table r

/-- Inserts the mapped columns of a record. -/
def insertMapped (r : Record) (table : Text) (m : FieldMap) : Except Error Text := do
  return insertText table (← mapped r m)

/-- Sets the columns of a record that are no keys. -/
def update (r : Record) (table : Text) (keys : List Text) : Except Error Text := do
  let found ← keyed .update .ok r keys
  return updateText table (r.filter fun e => !keys.contains e.1) found

/-- Sets the mapped columns of a record that are no keys. -/
def updateMapped (r : Record) (table : Text) (keys : List Text) (m : FieldMap) :
    Except Error Text := do
  let found ← keyed .update (find m) r keys
  let set ← mapped r (m.filter fun e => !keys.contains e.1)
  return updateText table set found

/-- Deletes the row with the keys of a record. -/
def delete (r : Record) (table : Text) (keys : List Text) : Except Error Text := do
  return deleteText table (← keyed .delete .ok r keys)

/-- Deletes the row with the mapped keys of a record. -/
def deleteMapped (r : Record) (table : Text) (keys : List Text) (m : FieldMap) :
    Except Error Text := do
  return deleteText table (← keyed .delete (find m) r keys)

end Change

end SqlText
