import SqlText.CopyField
import SqlText.Literal.Basic

/-!
# Bytes

The escape format of the type `bytea`: printable characters of ASCII stand for their bytes, a
backslash is doubled, and every other byte is a backslash and three octal digits. The result is a
text, which a literal or a COPY field then quotes once more.
-/

namespace SqlText

namespace Bytea

/-- The three octal digits of a byte. -/
def octal (b : UInt8) : Text :=
  [Nat.digitChar (b.toNat / 64), Nat.digitChar (b.toNat / 8 % 8), Nat.digitChar (b.toNat % 8)]

/-- Writes a byte. -/
def quoteByte (b : UInt8) : Text :=
  if b = 0x5C then ['\\', '\\']
  else if 0x20 ≤ b ∧ b < 0x7F then [Char.ofNat b.toNat]
  else '\\' :: octal b

/-- Writes bytes as a text. -/
def quote (bytes : List UInt8) : Text := bytes.flatMap quoteByte

/-- Writes bytes as a literal. -/
def quoteLiteral (bytes : Option (List UInt8)) : Text := Literal.quote (bytes.map quote)

/-- Writes bytes as a field of a COPY line. -/
def quoteCopy (bytes : Option (List UInt8)) : Text := CopyField.quote (bytes.map quote)

end Bytea

end SqlText
