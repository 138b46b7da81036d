/-!
# Hexadecimal digits

Lower-case hexadecimal digits of a natural number, plain and filled up with zeros to four places.
-/

namespace CallRefactor.Text

/-- The lower-case digit of a value below sixteen. -/
def hexDigit (d : Nat) : Char :=
  if d < 10 then Char.ofNat (0x30 + d) else Char.ofNat (0x57 + d)

/-- The hexadecimal digits of a number, without leading zeros. -/
def hex (n : Nat) : List Char :=
  if n < 16 then [hexDigit n] else hex (n / 16) ++ [hexDigit (n % 16)]

/-- The last four hexadecimal digits of a number, zeros included. -/
def hex4 (n : Nat) : List Char :=
  [hexDigit (n / 4096 % 16), hexDigit (n / 256 % 16), hexDigit (n / 16 % 16), hexDigit (n % 16)]

example : hex4 0x7f = ['0', '0', '7', 'f'] := by decide

end CallRefactor.Text
