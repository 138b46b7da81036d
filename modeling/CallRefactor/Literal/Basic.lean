/-!
# Literal values

The decoded value of a literal token. Floating-point values are held as their bits, so that every
not-a-number and both zeros are values of their own and equality is decidable.
-/

namespace CallRefactor

/-- The value of a literal token. -/
inductive Literal where
  /-- A string. -/
  | string (value : String)
  /-- A single character. -/
  | char (value : Char)
  /-- An integer of 32 bits. -/
  | int (value : Int32)
  /-- An integer of 64 bits. -/
  | long (value : Int64)
  /-- The bits of a floating-point number of 32 bits. -/
  | float (bits : UInt32)
  /-- The bits of a floating-point number of 64 bits. -/
  | double (bits : UInt64)
  /-- A truth value. -/
  | boolean (value : Bool)
  /-- The null reference. -/
  | null
deriving DecidableEq

/-- A change of a literal value. -/
abbrev LiteralTransform := Literal → Literal

end CallRefactor
