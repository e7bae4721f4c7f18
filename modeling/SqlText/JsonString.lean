import SqlText.Text.Basic

/-!
# JSON strings

A text as a string of JSON. A slash is escaped too, so that the string can stand inside a page
without ending a script.
-/

namespace SqlText

namespace JsonString

/-- A control character by its code: four hexadecimal digits. -/
def codeEscape (c : Char) : Text :=
  ['\\', 'u', '0', '0', Nat.digitChar (c.toNat / 16), Nat.digitChar (c.toNat % 16)]

/-- A character inside a string. -/
def quoteChar (c : Char) : Text :=
  if c = '\x08' then ['\\', 'b']
  else if c = '\x0C' then ['\\', 'f']
  else if c = '\n' then ['\\', 'n']
  else if c = '\r' then ['\\', 'r']
  else if c = '\t' then ['\\', 't']
  else if c = '\\' ∨ c = '"' ∨ c = '/' then ['\\', c]
  else if c.toNat < 0x20 then codeEscape c
  else [c]

/-- Writes a value: a string, or the word `null`. -/
def quote : Option Text → Text
  | none => "null".toList
  | some t => '"' :: t.flatMap quoteChar ++ ['"']

end JsonString

end SqlText
