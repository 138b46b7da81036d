import CallRefactor.Decimal.Shortest

/-!
# How floating-point numbers are written

A number is written with the fewest digits that identify it. Positional notation serves from
`0.0001` up to sixteen digits before the point and always has a digit after the point, as in `1.0`;
all else has an exponent, as in `1e16` and `1.5e-7`, and a point only between digits. Zero keeps
its sign and the number that is none has no sign.
-/

namespace CallRefactor.Decimal

/-- The digits of a numeral without zeros at the end; the value lies in the digits and in the place
of the leading one. -/
def Numeral.digits (d : Numeral) : List Char :=
  ((Nat.toDigits 10 d.coefficient).reverse.dropWhile (· = '0')).reverse

/-- The power of ten of the leading digit. -/
def Numeral.leading (d : Numeral) : Int := d.exponent + digitCount d.coefficient - 1

/-- Digits with the point after as many of them as `place` says, or before them if it says none or
less. -/
def positional (digits : List Char) (place : Int) : List Char :=
  if place ≤ 0 then ['0', '.'] ++ List.replicate (-place).toNat '0' ++ digits
  else if digits.length ≤ place.toNat then
    digits ++ List.replicate (place.toNat - digits.length) '0' ++ ['.', '0']
  else digits.take place.toNat ++ '.' :: digits.drop place.toNat

/-- Digits with the point after the first and the power of ten of the first behind an `e`. -/
def scientific (digits : List Char) (leading : Int) : List Char :=
  digits.take 1 ++ (if digits.length ≤ 1 then [] else '.' :: digits.drop 1)
    ++ 'e' :: (toString leading).toList

/-- A decimal number as it is written. -/
def Numeral.written (d : Numeral) : List Char :=
  if -4 ≤ d.leading ∧ d.leading < 16 then positional d.digits (d.leading + 1)
  else scientific d.digits d.leading

/-- A floating-point value as it is written. -/
def FloatValue.written : FloatValue → String
  | .nan => "NaN"
  | .infinite negative => if negative then "-inf" else "inf"
  | .zero negative => if negative then "-0.0" else "0.0"
  | .nonzero negative magnitude =>
    String.ofList ((if negative then ['-'] else []) ++ magnitude.shortest.written)

example : (Numeral.mk 15 (-8)).written = ['1', '.', '5', 'e', '-', '7'] := by decide +kernel

end CallRefactor.Decimal
