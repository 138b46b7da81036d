import CallRefactor.Unicode.Ranges

/-!
# Blanks

The property White_Space: twenty-five characters, among them the line and paragraph separators and
the spaces of every width, but not the zero-width space.
-/

namespace CallRefactor.Unicode

/-- The code points of the property White_Space. -/
def blankRanges : List (Nat × Nat) := [
  (0x9, 0xD), (0x20, 0x20), (0x85, 0x85), (0xA0, 0xA0), (0x1680, 0x1680), (0x2000, 0x200A),
  (0x2028, 0x2029), (0x202F, 0x202F), (0x205F, 0x205F), (0x3000, 0x3000)]

/-- Whether a character is a blank. -/
def isBlank (c : Char) : Bool := inRanges blankRanges c.toNat

example : isBlank '\u200b' = false := by decide

end CallRefactor.Unicode
