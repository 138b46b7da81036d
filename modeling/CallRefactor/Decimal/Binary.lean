/-!
# Binary floating-point values

The bits of a value in a binary interchange format, decoded. A finite value other than zero is a
significand times a power of two. The reals that round to it reach half-way to its neighbours; just
above a power of two the neighbour below is only half as far away.
-/

namespace CallRefactor.Decimal

/-- A binary interchange format: a sign bit, a biased exponent and a fraction. -/
structure FloatFormat where
  /-- The number of bits of the fraction. -/
  fractionBits : Nat
  /-- The number of bits of the exponent. -/
  exponentBits : Nat

/-- The format of 32 bits. -/
def binary32 : FloatFormat := ⟨23, 8⟩

/-- The format of 64 bits. -/
def binary64 : FloatFormat := ⟨52, 11⟩

/-- The bias of the exponent, which is also the exponent of the greatest power of two. -/
def FloatFormat.bias (format : FloatFormat) : Nat := (1 <<< (format.exponentBits - 1)) - 1

/-- A finite value above zero: the significand times two to the exponent. -/
structure Magnitude where
  /-- The integer significand. -/
  significand : Nat
  /-- The power of two by which it is scaled. -/
  exponent : Int
  /-- The gap to the value below is half the gap to the value above. -/
  narrowBelow : Bool
deriving DecidableEq

/-- What the bits of a floating-point format stand for. -/
inductive FloatValue where
  /-- No number. -/
  | nan
  /-- An infinity. -/
  | infinite (negative : Bool)
  /-- A zero, which has a sign. -/
  | zero (negative : Bool)
  /-- A finite value other than zero. -/
  | nonzero (negative : Bool) (magnitude : Magnitude)
deriving DecidableEq

/-- Decodes the bits of a value. -/
def FloatFormat.decode (format : FloatFormat) (bits : Nat) : FloatValue :=
  let fraction := bits % (1 <<< format.fractionBits)
  let biased := (bits >>> format.fractionBits) % (1 <<< format.exponentBits)
  let negative := bits.testBit (format.fractionBits + format.exponentBits)
  let least : Int := 1 - format.bias - format.fractionBits
  if biased = (1 <<< format.exponentBits) - 1 then
    if fraction = 0 then .infinite negative else .nan
  else if biased = 0 then
    if fraction = 0 then .zero negative else .nonzero negative ⟨fraction, least, false⟩
  else
    .nonzero negative
      ⟨(1 <<< format.fractionBits) + fraction, least + biased - 1, fraction = 0 ∧ 1 < biased⟩

example : binary64.decode 0x3FF0000000000000 = .nonzero false ⟨1 <<< 52, -52, true⟩ := by
  decide +kernel

end CallRefactor.Decimal
