import CallRefactor.Decimal.Overflow
import CallRefactor.Toml.Text

/-!
# Numbers of a TOML document

Integers are written in base ten, where they may have a sign and no leading zeros, or without a sign
in base sixteen, eight or two. An underscore may stand between any two digits. Integers have 64
bits. Numbers with a fraction or an exponent are recognised and kept in one written form.
-/

namespace CallRefactor.Toml

/-- Whether a character is a digit of base ten. -/
def isDecimal (c : Char) : Bool := '0' ≤ c && c ≤ '9'

/-- Whether a character is a digit of base sixteen. -/
def isHex (c : Char) : Bool := (hexValue? c).isSome

/-- Reads one or more digits, with single underscores between them, and gives the digits. An
underscore without a digit behind it is left. -/
def digits (p : Char → Bool) : Reader (List Char) := do
  let groups ← Reader.separated '_' (Reader.takeSome p)
  return groups.flatten

/-- Reads a sign, if there is one. -/
def sign : Reader (List Char) :=
  (do Reader.exactly ['+']; return ['+']) <|> (do Reader.exactly ['-']; return ['-']) <|> return []

/-- Reads digits of base ten without a leading zero. -/
def unsignedDecimal : Reader (List Char) := do
  if (← Reader.peek?) = some '0' then
    let zero ← Reader.anyChar
    return [zero]
  else digits isDecimal

/-- Whether a number fits into 64 bits with a sign. -/
def fits (n : Int) : Bool := Int64.minValue.toInt ≤ n && n ≤ Int64.maxValue.toInt

/-- Reads an integer behind the mark of its base. -/
def basedInteger (mark : Char) (base : Nat) (p : Char → Bool) : Reader Int := do
  Reader.exactly ['0', mark]
  return digitsValue base (← digits p)

/-- Reads an integer of base ten. -/
def decimalInteger : Reader Int := do
  let sign ← sign
  let value := digitsValue 10 (← unsignedDecimal)
  return if sign = ['-'] then -value else value

/-- Reads an integer. -/
def integer : Reader Int := do
  let n ← basedInteger 'x' 16 isHex <|> basedInteger 'o' 8 (fun c => '0' ≤ c && c ≤ '7')
    <|> basedInteger 'b' 2 (fun c => c = '0' || c = '1') <|> decimalInteger
  if fits n then return n else failure

/-- Reads a power of ten: its sign, if there is one, and its digits. -/
def exponent : Reader (List Char × List Char) := do
  Reader.exactly ['e'] <|> Reader.exactly ['E']
  let sign ← sign
  return (sign, ← digits isDecimal)

/-- Reads a point and gives the digits behind it. -/
def fraction : Reader (List Char) := do
  Reader.exactly ['.']
  digits isDecimal

/-- The number that digits before and behind a point denote, times a power of ten. -/
def numeral (whole part : List Char) (power : List Char × List Char) : Decimal.Numeral :=
  let shift : Int := digitsValue 10 power.2
  ⟨digitsValue 10 (whole ++ part), (if power.1 = ['-'] then -shift else shift) - part.length⟩

/-- Reads a number with a fraction or an exponent, without its sign. -/
def unsignedReal : Reader (Decimal.Numeral × String) := do
  let whole ← unsignedDecimal
  let (part, power) ← (do return ([], ← exponent))
    <|> (do return (← fraction, (← Reader.optional exponent).getD ([], ['0'])))
  return (numeral whole part power,
    String.ofList (whole ++ '.' :: part ++ 'e' :: power.1 ++ power.2))

/-- Reads a number with a fraction or an exponent, or one of the special values. A number that
rounds to the positive infinity is refused, while one that rounds to the negative one is not. -/
def real : Reader String := do
  let sign ← sign
  let magnitude ←
    (do
      let (numeral, written) ← unsignedReal
      if sign ≠ ['-'] ∧ numeral.overflows Decimal.binary64 then failure
      return written)
    <|> (do Reader.exactly "inf".toList; return "inf")
    <|> (do Reader.exactly "nan".toList; return "nan")
  return String.ofList sign ++ magnitude

end CallRefactor.Toml
