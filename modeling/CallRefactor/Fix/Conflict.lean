import CallRefactor.Span

/-!
# Conflicts

A conflict is a part of a rule that could not be carried out at one call. It drops that part, or all
fixes of the call, and nothing else.
-/

namespace CallRefactor

/-- Why a rule does not go together with a call. -/
inductive Obstacle where
  /-- The arguments are to be reordered and the declaration of the method is not known. -/
  | unknownMethod
  /-- The fixes overlap a fix of an earlier call, which has this span. -/
  | overlapsFix (span : Span)
deriving DecidableEq

/-- The wording of an obstacle. -/
def Obstacle.reason : Obstacle → String
  | .unknownMethod => "reordering arguments requires a resolved method symbol"
  | .overlapsFix span => s!"its fixes overlap the fix at {span} of another call"

/-- A part of a rule that could not be carried out at a call. -/
inductive Conflict where
  /-- A reorder key names no parameter, or one without an argument. -/
  | unresolvedTarget (call : Span) (target : String)
  /-- The rule does not go together with the call. -/
  | unsupported (call : Span) (obstacle : Obstacle)
deriving DecidableEq

namespace Conflict

/-- The call at which a conflict arose. -/
def call : Conflict → Span
  | .unresolvedTarget span _ => span
  | .unsupported span _ => span

/-- The wording of a conflict. -/
def message : Conflict → String
  | .unresolvedTarget span target =>
    s!"no argument of the call at {span} is bound to reorder target `{target}`"
  | .unsupported span obstacle =>
    s!"rule cannot be applied to the call at {span}: {obstacle.reason}"

end Conflict

end CallRefactor
