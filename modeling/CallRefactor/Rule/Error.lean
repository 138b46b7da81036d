import CallRefactor.Pattern.Error

/-!
# Rejected rules

A rule is rejected for a malformed pattern or because its parts contradict each other.
-/

namespace CallRefactor

/-- A change to the argument rule that was added last. -/
inductive Modifier where
  /-- Giving it a literal transform. -/
  | literalTransform
  /-- Moving its arguments behind the others. -/
  | moveToLast
deriving DecidableEq

/-- The name of a modifier. -/
def Modifier.keyword : Modifier → String
  | .literalTransform => "literal_transform"
  | .moveToLast => "move_to_last"

/-- Why a rule was rejected. -/
inductive RuleError where
  /-- The text is no signature, or no type pattern. -/
  | malformed (text : String) (cause : PatternError)
  /-- A modifier came before any argument rule. -/
  | danglingModifier (modifier : Modifier)
  /-- The calls cannot go both to a class and to a variable. -/
  | twoTargets (className variableName : String)
  /-- An argument rule selects by position and by type. -/
  | twoSelectors (position : Nat) (type : String)
  /-- An argument rule selects nothing. -/
  | noSelector
deriving DecidableEq

namespace RuleError

/-- What is ambiguous about a rule whose parts contradict each other. -/
def ambiguity? : RuleError → Option String
  | .malformed _ _ => none
  | .danglingModifier modifier =>
    some s!"`{modifier.keyword}` was configured before any `arg`"
  | .twoTargets className variableName =>
    some ("both a static owner (`" ++ className ++ "`) and a variable (`" ++ variableName
      ++ "`) were given as the new call target")
  | .twoSelectors position type =>
    some s!"argument rule sets both position {position} and type `{type}`"
  | .noSelector => some "argument rule sets neither a position nor a type"

/-- The wording of an error. -/
def message (error : RuleError) : String :=
  match error with
  | .malformed text cause => "malformed method signature `" ++ text ++ "`: " ++ cause.reason
  | other => "ambiguous rewrite configuration: " ++ other.ambiguity?.getD ""

end RuleError

end CallRefactor
