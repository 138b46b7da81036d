import CallRefactor.Unicode.Age
import CallRefactor.Unicode.Alphabetic
import CallRefactor.Unicode.Mark
import CallRefactor.Unicode.Number

/-!
# Words and names

Two classes of characters: those that make up a word, and those that may be written in a pattern.
They overlap but neither contains the other: a superscript two may be written in a pattern and is
no word character, while a combining accent is a word character and may not be written.

Words are those of Unicode 16 and patterns those of Unicode 17. From one to the other no character
changed its class, so the words of Unicode 16 are those of Unicode 17 without what it added.
-/

namespace CallRefactor.Unicode

/-- The code points of general category Pc, the punctuation that connects words. -/
def connectorRanges : List (Nat × Nat) := [
  (0x5F, 0x5F), (0x203F, 0x2040), (0x2054, 0x2054), (0xFE33, 0xFE34), (0xFE4D, 0xFE4F),
  (0xFF3F, 0xFF3F)]

/-- The code points of the property Join_Control. -/
def joinControlRanges : List (Nat × Nat) := [(0x200C, 0x200D)]

/-- Whether a character is part of a word by Unicode 16: alphabetic, a mark, a decimal digit, a
connector or a join control. -/
def isWordChar (c : Char) : Bool :=
  !isAge17 c && (isAlphabetic c || isMark c || isDecimalDigit c
    || inRanges connectorRanges c.toNat || inRanges joinControlRanges c.toNat)

/-- Whether a character is alphabetic or a number of any kind by Unicode 17. -/
def isAlphanumeric (c : Char) : Bool :=
  isAlphabetic c || isDecimalDigit c || isOtherNumber c

end CallRefactor.Unicode
