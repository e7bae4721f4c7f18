import SqlText.Change.Operation
import SqlText.Dialect
import SqlText.Token.Basic

/-!
# Stored forms

How kinds, operations, dialects and options are kept in a document, and read back. A choice is kept
as its name; it may also be given as a record of that one name without content. A structure is kept
as a record of all its fields; it may also be given as a list of them, in order. Fields that a
structure does not have are passed over.
-/

namespace SqlText

namespace Stored

/-- A piece of a document. -/
inductive Datum
  | null
  | bool (b : Bool)
  /-- A number. No stored form holds one, so its value does not matter. -/
  | number
  | text (s : String)
  | list (items : List Datum)
  | record (fields : List (String × Datum))
  deriving Inhabited

/-! ## Choices -/

/-- The name that a piece of a document chooses. -/
def choice? : Datum → Option String
  | .text s => some s
  | .record [(s, .null)] => some s
  | _ => none

/-- Reads a kind. -/
def kind? (d : Datum) : Option Kind := (choice? d).bind Kind.ofName?

/-- Writes a kind. -/
def ofKind (k : Kind) : Datum := .text k.name

/-- Reads an operation. -/
def operation? (d : Datum) : Option Operation := (choice? d).bind Operation.ofName?

/-- Writes an operation. -/
def ofOperation (op : Operation) : Datum := .text op.name

/-! ## Structures -/

/-- Reads a truth value. -/
def bool? : Datum → Option Bool
  | .bool b => some b
  | _ => none

/-- The fields of a structure, in the order of their names. -/
def fields? (names : List String) : Datum → Option (List Datum)
  | .record fields => names.mapM fun s => fields.lookup s
  | .list items => if items.length = names.length then some items else none
  | _ => none

/-- Reads a dialect. -/
def dialect? (d : Datum) : Option Dialect :=
  match fields? ["standard_quoting", "fully_qualified"] d with
  | some [standard, qualified] => do return ⟨← bool? standard, ← bool? qualified⟩
  | _ => none

/-- Writes a dialect. -/
def ofDialect (d : Dialect) : Datum :=
  .record [("standard_quoting", .bool d.standardQuoting),
    ("fully_qualified", .bool d.fullyQualified)]

/-- Reads options. -/
def options? (d : Datum) : Option Options :=
  match fields? ["dialect", "ignore_whitespace", "show_location"] d with
  | some [dialect, ignore, location] => do
    return ⟨← dialect? dialect, ← bool? ignore, ← bool? location⟩
  | _ => none

/-- Writes options. -/
def ofOptions (o : Options) : Datum :=
  .record [("dialect", ofDialect o.dialect), ("ignore_whitespace", .bool o.ignoreBlanks),
    ("show_location", .bool o.showLocation)]

/-! ## Written forms are read back -/

theorem kind?_ofKind (k : Kind) : kind? (ofKind k) = some k := Kind.ofName?_name k

theorem operation?_ofOperation (op : Operation) : operation? (ofOperation op) = some op := by
  cases op <;> decide

theorem dialect?_ofDialect (d : Dialect) : dialect? (ofDialect d) = some d := rfl

theorem options?_ofOptions (o : Options) : options? (ofOptions o) = some o := rfl

end Stored

end SqlText
