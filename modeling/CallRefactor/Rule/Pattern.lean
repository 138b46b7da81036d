import CallRefactor.Pattern.Signature
import CallRefactor.Rule.Error

/-!
# Patterns of a rule

A rule gives its patterns as texts. A text that is no pattern rejects the rule, and the error holds
the whole text as it was given, with the blanks around it.
-/

namespace CallRefactor

/-- Reads the signature of a rule. -/
def Signature.compile (text : String) : Except RuleError Signature :=
  (Signature.parse text).mapError (.malformed text)

/-- Reads a type pattern of a rule. -/
def TypePattern.compile (text : String) : Except RuleError TypePattern :=
  (TypePattern.parse text).mapError (.malformed text)

end CallRefactor
