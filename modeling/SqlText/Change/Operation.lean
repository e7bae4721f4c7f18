import SqlText.Error

/-!
# Change operations

A change of a row is an insert, an update or a delete. A log marks it with one letter.
-/

namespace SqlText

/-- A kind of row change. -/
inductive Operation
  | insert
  | update
  | delete
  deriving DecidableEq, Repr

namespace Operation

/-- Every operation. -/
def all : List Operation := [insert, update, delete]

/-- The letter of an operation. -/
def tag : Operation → Char
  | insert => 'I'
  | update => 'U'
  | delete => 'D'

/-- The operation with a letter. -/
def ofTag (c : Char) : Except Error Operation :=
  match all.find? (·.tag == c) with
  | some op => .ok op
  | none => .error (.unknownOperation c)

/-- The name under which an operation is stored. -/
def name : Operation → String
  | insert => "Insert"
  | update => "Update"
  | delete => "Delete"

/-- The operation stored under a name. -/
def ofName? (s : String) : Option Operation := all.find? (·.name == s)

/-- Reading a letter gives the operation back. -/
theorem ofTag_tag (op : Operation) : ofTag op.tag = .ok op := by
  cases op <;> rfl

end Operation

end SqlText
