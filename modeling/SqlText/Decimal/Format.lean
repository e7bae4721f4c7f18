import SqlText.Decimal.Shortest

/-!
# Formats of binary numbers

A binary number of fixed width is a sign bit, an exponent field and a fraction field. The greatest
exponent field marks infinities and what is not a number, the least one marks zero and the numbers
too small for a leading one.
-/

namespace SqlText

namespace Decimal

/-- A format of binary numbers: a sign bit, then the exponent, then the fraction. -/
structure Format where
  exponentBits : Nat
  fractionBits : Nat
  /-- So many decimal digits tell any two numbers of the format apart. -/
  mostDigits : Nat

/-- The format of 32 bits. -/
def Format.single : Format := ⟨8, 23, 9⟩

/-- The format of 64 bits. -/
def Format.double : Format := ⟨11, 52, 17⟩

/-- What the bits of a binary number stand for. -/
inductive Number
  | nan
  | infinite (negative : Bool)
  | zero (negative : Bool)
  | finite (negative : Bool) (magnitude : Binary)

namespace Format

/-- The greatest exponent field: it marks infinities and what is not a number. -/
def special (f : Format) : Nat := Nat.pow 2 f.exponentBits - 1

/-- The power of two of the last bit of a number whose exponent field is one. -/
def leastExponent (f : Format) : Int :=
  2 - Int.ofNat (Nat.pow 2 (f.exponentBits - 1) + f.fractionBits)

/-- Reads the bits of a number. A number whose exponent field is zero has no leading one. -/
def decode (f : Format) (bits : Nat) : Number :=
  let fraction := bits % Nat.pow 2 f.fractionBits
  let exponent := bits / Nat.pow 2 f.fractionBits % Nat.pow 2 f.exponentBits
  let negative := bits / Nat.pow 2 (f.fractionBits + f.exponentBits) % 2 == 1
  if exponent = f.special then
    if fraction = 0 then .infinite negative else .nan
  else if exponent = 0 then
    if fraction = 0 then .zero negative else .finite negative ⟨fraction, f.leastExponent, false⟩
  else
    .finite negative
      { mantissa := Nat.pow 2 f.fractionBits + fraction
        exponent := f.leastExponent + (exponent - 1 : Nat)
        narrowBelow := fraction = 0 ∧ 1 < exponent }

end Format

end Decimal

end SqlText
