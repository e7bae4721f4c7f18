import SqlText.Decimal.Format
import SqlText.Decimal.Layout

/-!
# Values

A value is the missing value or has a text: what is written for it before any quoting. Numbers are
written so that the server reads the same number back.
-/

namespace SqlText

/-- A value of a column. -/
inductive Value
  /-- The missing value. -/
  | null
  | bool (b : Bool)
  | text (t : Text)
  | integer (i : Int)
  /-- A binary number of 32 bits. -/
  | binary32 (bits : UInt32)
  /-- A binary number of 64 bits. -/
  | binary64 (bits : UInt64)
  /-- The number `mantissa / 10 ^ scale`, known to `scale` places. -/
  | decimal (mantissa : Int) (scale : Nat)
  deriving DecidableEq, Repr

namespace Value

open Decimal

/-! ## Binary numbers -/

/-- Numbers from `0.0001` up to `10 ^ 16` are written without an exponent. -/
def layout : Layout := ⟨-4, 15⟩

/-- The text of a binary number. -/
def binaryText (f : Format) (bits : Nat) : Text :=
  let sign (negative : Bool) : Text := if negative then ['-'] else []
  match f.decode bits with
  | .nan => "NaN".toList
  | .infinite negative => sign negative ++ "Infinity".toList
  | .zero negative => sign negative ++ ['0']
  | .finite negative magnitude => sign negative ++ layout.write (magnitude.shortest f.mostDigits)

/-! ## Decimal numbers -/

/-- The text of a decimal number: all of its places, also zeros. -/
def decimalText (mantissa : Int) (scale : Nat) : Text :=
  let digits := natText mantissa.natAbs
  let padded := List.replicate (scale + 1 - digits.length) '0' ++ digits
  let whole := padded.length - scale
  (if mantissa < 0 then ['-'] else []) ++ padded.take whole
    ++ (if scale = 0 then [] else '.' :: padded.drop whole)

/-! ## Texts of values -/

/-- The text of a value; the missing value has none. -/
def toText? : Value → Option Text
  | null => none
  | bool b => some (if b then "True".toList else "False".toList)
  | text t => some t
  | integer i => some (intText i)
  | binary32 bits => some (binaryText .single bits.toNat)
  | binary64 bits => some (binaryText .double bits.toNat)
  | decimal mantissa scale => some (decimalText mantissa scale)

end Value

end SqlText
