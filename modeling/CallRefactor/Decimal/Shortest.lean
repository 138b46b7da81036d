import CallRefactor.Decimal.Binary

/-!
# The fewest digits that read back

A decimal reads back to a binary value when it lies among the reals that round to it. `shortest`
finds a decimal with as few digits as possible that reads back, and the nearest such; of two that
are equally near, the larger.

The search runs through ever finer decimal grids, from the one of the leading digit on. On each
grid only the two neighbours of the value can be the nearest that read back, so only they are
tried. All comparisons are exact, between natural numbers.
-/

namespace CallRefactor.Decimal

/-- A decimal number: the coefficient times ten to the exponent. -/
structure Numeral where
  /-- The integer coefficient. -/
  coefficient : Nat
  /-- The power of ten by which it is scaled. -/
  exponent : Int
deriving DecidableEq

/-! ## Exact comparison -/

/-- The place of `a` times ten to the `i` relative to `b` times two to the `j`. -/
def compareScaled (a : Nat) (i : Int) (b : Nat) (j : Int) : Ordering :=
  compare ((a * Nat.pow 10 i.toNat) <<< (-j).toNat) ((b <<< j.toNat) * Nat.pow 10 (-i).toNat)

/-- Whether a decimal lies among the reals that round to `x`. Both ends of that interval belong to
it exactly when the significand is even. -/
def Magnitude.readsBack (x : Magnitude) (d : Numeral) : Bool :=
  let lower := if x.narrowBelow then 4 * x.significand - 1 else 4 * x.significand - 2
  let upper := 4 * x.significand + 2
  let closed := x.significand % 2 = 0
  let atLower := compareScaled d.coefficient d.exponent lower (x.exponent - 2)
  let atUpper := compareScaled d.coefficient d.exponent upper (x.exponent - 2)
  (atLower = .gt || (closed && atLower = .eq)) && (atUpper = .lt || (closed && atUpper = .eq))

/-! ## Search -/

/-- The value as a quotient of natural numbers. -/
def Magnitude.quotient (x : Magnitude) : Nat × Nat :=
  (x.significand <<< x.exponent.toNat, 1 <<< (-x.exponent).toNat)

/-- The number of decimal digits of a number. -/
def digitCount (n : Nat) : Nat := (Nat.toDigits 10 n).length

/-- The least power of ten above the value. -/
def Magnitude.scale (x : Magnitude) : Int :=
  let (num, den) := x.quotient
  if den ≤ num then digitCount (num / den) else 1 - digitCount ((den - 1) / num)

/-- The number of grid steps of size ten to the `exponent` that fit below the value. -/
def Magnitude.steps (x : Magnitude) (exponent : Int) : Nat :=
  let (num, den) := x.quotient
  num * Nat.pow 10 (-exponent).toNat / (den * Nat.pow 10 exponent.toNat)

/-- The neighbour of the value on a decimal grid that reads back, the nearer if both do and the
upper one if they are equally near. -/
def Magnitude.onGrid? (x : Magnitude) (exponent : Int) : Option Numeral :=
  let below : Numeral := ⟨x.steps exponent, exponent⟩
  let above : Numeral := ⟨x.steps exponent + 1, exponent⟩
  let middle := compareScaled (2 * x.steps exponent + 1) exponent (2 * x.significand) x.exponent
  match x.readsBack below, x.readsBack above with
  | true, true => some (if middle = .gt then below else above)
  | true, false => some below
  | false, true => some above
  | false, false => none

/-- A shortest decimal that reads back. Seventeen digits suffice for every format of up to 64 bits;
were they not to, the value on the finest grid tried would be taken. -/
def Magnitude.shortest (x : Magnitude) : Numeral :=
  let finest := x.scale - 17
  let found := (List.range 17).findSome? fun (n : Nat) => x.onGrid? (x.scale - n - 1)
  found.getD ⟨x.steps finest, finest⟩

example : Magnitude.shortest ⟨1 <<< 52, -77, true⟩ = ⟨29802322387695313, -24⟩ := by decide +kernel

end CallRefactor.Decimal
