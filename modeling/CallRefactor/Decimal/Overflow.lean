import CallRefactor.Decimal.Notation

/-!
# Decimals too large for a format

A decimal rounds to an infinity when it reaches the middle between the greatest finite value and
the power of two after it. Comparing the leading digit first keeps the powers of ten small.
-/

namespace CallRefactor.Decimal

/-- Whether a decimal rounds to an infinity of a format. The bound is a significand with one bit
more than the format has, all ones, at the scale of the greatest values. -/
def Numeral.overflows (format : FloatFormat) (d : Numeral) : Bool :=
  let significand := (1 <<< (format.fractionBits + 2)) - 1
  let exponent : Int := format.bias - format.fractionBits - 1
  let above := compareScaled d.coefficient d.exponent significand exponent ≠ .lt
  0 < d.coefficient && 0 ≤ d.leading && (format.bias < d.leading || above)

example : (Numeral.mk 17976931348623158 292).overflows binary64 = false ∧
    (Numeral.mk 17976931348623159 292).overflows binary64 = true := by decide +kernel

end CallRefactor.Decimal
