/-!
# Control characters

The general category Cc: the two blocks of control codes and the delete character between them.
-/

namespace CallRefactor.Unicode

/-- Whether a character is a control code. -/
def isControl (c : Char) : Bool := c.toNat < 0x20 || (0x7F ≤ c.toNat && c.toNat ≤ 0x9F)

example : isControl '\x7f' = true ∧ isControl '~' = false ∧ isControl '\u00a0' = false := by decide

end CallRefactor.Unicode
