import SqlText.Text.Basic

/-!
# Sets of characters by ranges of code points

A property of characters is a table: ranges with both ends, in ascending order. Where every second
character of a range has the property, as in alphabets that alternate capital and small letters, the
range carries a step.
-/

namespace SqlText

namespace Text

/-- Whether a character's code point lies in one of the ranges; both ends belong to a range. -/
def inRanges (ranges : List (Nat × Nat)) (c : Char) : Bool :=
  ranges.any fun r => r.1 ≤ c.toNat && c.toNat ≤ r.2

/-- The code points `first`, `first + step`, `first + 2 * step`, … up to `last`. -/
structure Stretch where
  first : Nat
  last : Nat
  step : Nat

/-- Whether a code point is one of a stretch. -/
def Stretch.contains (s : Stretch) (n : Nat) : Bool :=
  s.first ≤ n && n ≤ s.last && (n - s.first) % s.step == 0

end Text

end SqlText
