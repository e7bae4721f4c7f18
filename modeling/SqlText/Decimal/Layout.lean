import SqlText.Decimal.Shortest
import SqlText.Text.Basic

/-!
# Layouts of decimals

How digits and a power of ten are written: with a point between the digits, with zeros before or
behind them, or with an exponent.
-/

namespace SqlText

namespace Decimal

/-- The decimal digits of a natural number. -/
def natText (n : Nat) : Text := Nat.toDigits 10 n

/-- The decimal digits of an integer, with a sign if it is negative. -/
def intText (i : Int) : Text := (if i < 0 then ['-'] else []) ++ natText i.natAbs

/-- Drops the zeros at the end of some digits. -/
def trimZeros (digits : Text) : Text := (digits.reverse.dropWhile (· == '0')).reverse

/-- Digits with a point behind the first `whole` of them, with zeros where there are no digits. -/
def positional (digits : Text) (whole : Int) : Text :=
  if whole ≤ 0 then ['0', '.'] ++ List.replicate (-whole).toNat '0' ++ digits
  else
    let n := whole.toNat
    if digits.length ≤ n then digits ++ List.replicate (n - digits.length) '0'
    else digits.take n ++ '.' :: digits.drop n

/-- Digits with a point behind the first of them, and a power of ten. -/
def scientific (digits : Text) (exponent : Int) : Text :=
  let fraction := digits.drop 1
  digits.take 1 ++ (if fraction.isEmpty then [] else '.' :: fraction) ++ 'e' :: intText exponent

/-- The exponents of ten from which on, and up to which, no exponent is written. -/
structure Layout where
  leastPositional : Int
  greatestPositional : Int

/-- Writes a decimal. -/
def Layout.write (l : Layout) (d : Shortest) : Text :=
  let all := natText d.digits
  let exponent := d.exponent + all.length - 1
  let digits := trimZeros all
  if l.leastPositional ≤ exponent ∧ exponent ≤ l.greatestPositional then
    positional digits (exponent + 1)
  else scientific digits exponent

end Decimal

end SqlText
