import CallRefactor.Rule.Draft

/-!
# Configured rules

A configuration describes a rule by data alone, so it has no literal transforms. Its entries for
arguments select by position or by type and have to do exactly one of the two. Entries are checked
in order and before anything else of the rule.
-/

namespace CallRefactor

/-- An entry for arguments. -/
structure ArgumentConfig where
  /-- The position of the argument, if it is selected so. -/
  position? : Option Nat := none
  /-- The type pattern of the arguments, if they are selected so. -/
  type? : Option String := none
  /-- Whether the arguments move behind the others. -/
  moveToLast : Bool := false
deriving DecidableEq

/-- The description of a rule. -/
structure Config where
  /-- The text of the signature. -/
  signature : String
  /-- The new name of the method. -/
  rename? : Option String := none
  /-- The new order of the arguments. -/
  reorder? : Option (List ReorderKey) := none
  /-- The entries for arguments. -/
  arguments : List ArgumentConfig := []
  /-- The class that the calls are to go to. -/
  targetClass? : Option String := none
  /-- The variable that the calls are to go to. -/
  targetVariable? : Option String := none
deriving DecidableEq

/-- The constraint of an entry for arguments. -/
def ArgumentConfig.constraint (entry : ArgumentConfig) : Except RuleError Constraint :=
  match entry.position?, entry.type? with
  | some position, none => .ok (.position position)
  | none, some type => .ok (.type type)
  | some position, some type => .error (.twoSelectors position type)
  | none, none => .error .noSelector

/-- The steps that an entry for arguments stands for. -/
def ArgumentConfig.steps (entry : ArgumentConfig) : Except RuleError (List DraftStep) :=
  entry.constraint.map fun constraint =>
    .argument constraint :: if entry.moveToLast then [.moveToLast] else []

namespace Config

/-- The draft of the rule that a configuration describes. -/
def draft (config : Config) : Except RuleError Draft := do
  let arguments ← config.arguments.mapM ArgumentConfig.steps
  let steps :=
    config.rename?.toList.map .rename ++ config.reorder?.toList.map .reorder
      ++ arguments.flatten ++ config.targetClass?.toList.map .retargetToStatic
      ++ config.targetVariable?.toList.map .retargetToVariable
  return Draft.steps { signature := config.signature } steps

/-- The rule that a configuration describes, or the first fault of it. -/
def build (config : Config) : Except RuleError Rule := do
  let draft ← config.draft
  draft.build

end Config

end CallRefactor
