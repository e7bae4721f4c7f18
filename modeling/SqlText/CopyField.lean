import SqlText.Literal.Escape

/-!
# Fields of COPY lines

In the text format of COPY a line holds fields with tabs between them. Inside a field a tab, a line
feed, a carriage return and a backslash are written as escapes, and `\N` is the missing value.
-/

namespace SqlText

namespace CopyField

/-- The field of the missing value. -/
def null : Text := ['\\', 'N']

/-- A character inside a field. -/
def quoteChar (c : Char) : Text :=
  if c = '\\' then ['\\', '\\']
  else if c = '\t' then ['\\', 't']
  else if c = '\n' then ['\\', 'n']
  else if c = '\r' then ['\\', 'r']
  else [c]

/-- Writes a value as a field. -/
def quote : Option Text → Text
  | none => null
  | some t => t.flatMap quoteChar

/-- Reads a field. -/
def unquote (t : Text) : Option Text := if t = null then none else some (Escape.unescape t)

end CopyField

end SqlText
