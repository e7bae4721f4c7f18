/-!
# Shortest decimals of binary numbers

A binary number of fixed width is one point of a grid, and every real number nearer to it than to
its neighbours is rounded to it. Its shortest decimal is the one with the fewest digits in that
interval; of two with equally few digits, the nearer one.

All is done on natural numbers. A positive number `mantissa * 2 ^ exponent` is scaled by four, so
that the ends of its interval are whole too, and written as a fraction.

## Main definitions

* `Binary`: a positive binary number with the shape of its interval.
* `Shortest`: digits and a power of ten.
* `Binary.shortest`: the shortest decimal of a binary number.
-/

namespace SqlText

namespace Decimal

/-- A positive binary number `mantissa * 2 ^ exponent`. -/
structure Binary where
  mantissa : Nat
  exponent : Int
  /-- The next smaller number is only half as far away as the next greater one. -/
  narrowBelow : Bool
  deriving DecidableEq, Repr

/-- A decimal `digits * 10 ^ exponent`. -/
structure Shortest where
  digits : Nat
  exponent : Int
  deriving DecidableEq, Repr

/-- The number of decimal digits of a natural number. -/
def digitCount (n : Nat) : Nat := (Nat.toDigits 10 n).length

/-- Three numbers over one denominator: a value and the ends of the interval around it. -/
structure Interval where
  value : Nat
  low : Nat
  high : Nat
  denominator : Nat
  /-- The ends belong to the interval. -/
  closed : Bool
  deriving DecidableEq, Repr

namespace Interval

/-- The interval times `10 ^ p`. -/
def scale (i : Interval) (p : Int) : Interval :=
  if 0 ≤ p then
    let f := Nat.pow 10 p.toNat
    { i with value := i.value * f, low := i.low * f, high := i.high * f }
  else { i with denominator := i.denominator * Nat.pow 10 (-p).toNat }

/-- The greatest `e` with `10 ^ e` at most the value. -/
def magnitude (i : Interval) : Int :=
  let a := digitCount i.value
  let b := digitCount i.denominator
  let e : Int := (a : Int) - b
  if i.denominator * Nat.pow 10 a ≤ i.value * Nat.pow 10 b then e else e - 1

/-- Whether a whole number at most the value lies in the interval. -/
def reachesDown (i : Interval) (n : Nat) : Bool :=
  if i.closed then i.low ≤ n * i.denominator else i.low < n * i.denominator

/-- Whether a whole number at least the value lies in the interval. -/
def reachesUp (i : Interval) (n : Nat) : Bool :=
  if i.closed then n * i.denominator ≤ i.high else n * i.denominator < i.high

/--
The whole number in the interval that is nearest to the value, if the one below or the one above it
lies there. At equal distance it is the one above.
-/
def nearest? (i : Interval) : Option Nat :=
  let n := i.value / i.denominator
  let beyond := i.value % i.denominator
  let up := i.reachesUp (n + 1)
  if i.reachesDown n then
    if up && i.denominator ≤ 2 * beyond then some (n + 1) else some n
  else if up then some (n + 1)
  else none

end Interval

namespace Binary

/-- The numbers that are rounded to this one; the ends are rounded to even mantissas. -/
def interval (b : Binary) : Interval :=
  let value := 4 * b.mantissa
  let below := if b.narrowBelow then 1 else 2
  let f := Nat.pow 2 (b.exponent - 2).toNat
  { value := value * f
    low := (value - below) * f
    high := (value + 2) * f
    denominator := Nat.pow 2 (2 - b.exponent).toNat
    closed := b.mantissa % 2 == 0 }

/-- The decimal with `count` digits that is nearest to the number, if one lies in its interval. -/
def withDigits? (b : Binary) (count : Nat) : Option Shortest :=
  let i := b.interval
  let exponent := i.magnitude - count + 1
  ((i.scale (-exponent)).nearest?).map (⟨·, exponent⟩)

/-- The decimal with the fewest digits, at most `most`, that is rounded to the number. -/
def shortest (b : Binary) (most : Nat) : Shortest :=
  ((List.range most).findSome? fun k => b.withDigits? (k + 1)).getD ⟨b.mantissa, b.exponent⟩

end Binary

end Decimal

end SqlText
