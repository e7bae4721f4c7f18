import SqlText.Text.Printable

/-!
# Texts inside messages

A message shows a text between quotes, so that its ends and every character can be made out.
Characters that cannot be seen are written by their code point.
-/

namespace SqlText

namespace Text

/-- A character inside a text shown between `quote`s. -/
def showChar (quote c : Char) : Text :=
  if c = '\x00' then ['\\', '0']
  else if c = '\t' then ['\\', 't']
  else if c = '\n' then ['\\', 'n']
  else if c = '\r' then ['\\', 'r']
  else if c = '\\' ∨ c = quote then ['\\', c]
  else if isExtender c || !isPrintable c then
    ['\\', 'u', '{'] ++ Nat.toDigits 16 c.toNat ++ ['}']
  else [c]

/-- A text shown between `quote`s. -/
def shownBetween (quote : Char) (t : Text) : Text :=
  quote :: t.flatMap (showChar quote) ++ [quote]

/-- A text shown between double quotes. -/
def shown (t : Text) : String := String.ofList (shownBetween '"' t)

/-- A character shown between single quotes. -/
def shownChar (c : Char) : String := String.ofList (shownBetween '\'' [c])

end Text

end SqlText
