import CallRefactor.Rule.Basic

/-!
# Drafts of rules

A rule is put together step by step and then built. A step for one part of the rule replaces an
earlier one for the same part. Argument rules add up, and a modifier changes the one added last. A
modifier that comes before any argument rule spoils the draft, whatever steps follow.

`Draft.build` checks the draft and reports the first fault in this order: the signature, a dangling
modifier, two targets, the type patterns of the argument rules.
-/

namespace CallRefactor

/-- An argument rule whose type pattern has not been read yet. -/
structure ArgumentDraft where
  /-- The arguments that the rule is meant for. -/
  constraint : Constraint
  /-- How their literals change, if they do. -/
  transform? : Option LiteralTransform := none
  /-- Whether they move behind the others. -/
  moveToLast : Bool := false

/-- One step in putting a rule together. -/
inductive DraftStep where
  /-- Gives the method a new name. -/
  | rename (name : String)
  /-- Gives the arguments a new order. -/
  | reorder (keys : List ReorderKey)
  /-- Adds an argument rule. -/
  | argument (constraint : Constraint)
  /-- Gives the argument rule that was added last a literal transform. -/
  | literalTransform (transform : LiteralTransform)
  /-- Gives the first argument rule for a constraint a literal transform, and adds the rule if
  there is none. -/
  | literalTransformFor (constraint : Constraint) (transform : LiteralTransform)
  /-- Lets the arguments of the rule that was added last move behind the others. -/
  | moveToLast
  /-- Makes the calls go to a class. -/
  | retargetToStatic (className : String)
  /-- Makes the calls go to a variable. -/
  | retargetToVariable (name : String)

/-- A rule that is being put together. -/
structure Draft where
  /-- The text of the signature. -/
  signature : String
  /-- The new name of the method. -/
  rename? : Option String := none
  /-- The new order of the arguments. -/
  reorder? : Option (List ReorderKey) := none
  /-- The argument rules in the order in which they were added. -/
  arguments : List ArgumentDraft := []
  /-- The class that the calls are to go to. -/
  targetClass? : Option String := none
  /-- The variable that the calls are to go to. -/
  targetVariable? : Option String := none
  /-- The last modifier that came before any argument rule. -/
  dangling? : Option Modifier := none

namespace Draft

/-! ## Steps -/

/-- Applies a function to the last element of a list, or gives `none` if there is none. -/
def modifyLast? {α : Type} (f : α → α) : List α → Option (List α)
  | [] => none
  | [x] => some [f x]
  | x :: y :: rest => (modifyLast? f (y :: rest)).map (x :: ·)

/-- Applies a function to the first element that satisfies `p`, or gives `none` if there is
none. -/
def modifyFirst? {α : Type} (p : α → Bool) (f : α → α) : List α → Option (List α)
  | [] => none
  | x :: rest => if p x then some (f x :: rest) else (modifyFirst? p f rest).map (x :: ·)

/-- Changes the argument rule that was added last. Without one the modifier is left dangling. -/
def modify (draft : Draft) (modifier : Modifier) (f : ArgumentDraft → ArgumentDraft) : Draft :=
  match modifyLast? f draft.arguments with
  | some arguments => { draft with arguments }
  | none => { draft with dangling? := some modifier }

/-- Gives the first argument rule for a constraint a literal transform, and adds the rule if there
is none. -/
def transformFor (draft : Draft) (constraint : Constraint) (transform : LiteralTransform) : Draft :=
  let changed := modifyFirst? (fun argument => argument.constraint = constraint)
    (fun argument => { argument with transform? := some transform }) draft.arguments
  match changed with
  | some arguments => { draft with arguments }
  | none =>
    { draft with
      arguments := draft.arguments ++ [{ constraint, transform? := some transform }] }

/-- The draft after one more step. -/
def step (draft : Draft) : DraftStep → Draft
  | .rename name => { draft with rename? := some name }
  | .reorder keys => { draft with reorder? := some keys }
  | .argument constraint => { draft with arguments := draft.arguments ++ [{ constraint }] }
  | .literalTransform transform =>
    draft.modify .literalTransform fun argument => { argument with transform? := some transform }
  | .literalTransformFor constraint transform => draft.transformFor constraint transform
  | .moveToLast => draft.modify .moveToLast fun argument => { argument with moveToLast := true }
  | .retargetToStatic className => { draft with targetClass? := some className }
  | .retargetToVariable name => { draft with targetVariable? := some name }

/-- The draft after several steps in order. -/
def steps (draft : Draft) (list : List DraftStep) : Draft := list.foldl step draft

/-! ## Building -/

/-- The signature of a draft. -/
def readSignature (draft : Draft) : Except RuleError Signature := Signature.compile draft.signature

/-- Refuses a draft with a dangling modifier. -/
def checkModifiers (draft : Draft) : Except RuleError Unit :=
  match draft.dangling? with
  | some modifier => .error (.danglingModifier modifier)
  | none => .ok ()

/-- The target of a draft, which cannot be both a class and a variable. -/
def readTarget (draft : Draft) : Except RuleError (Option Target) :=
  match draft.targetClass?, draft.targetVariable? with
  | some className, some name => .error (.twoTargets className name)
  | some className, none => .ok (some (.onClass className))
  | none, some name => .ok (some (.onVariable name))
  | none, none => .ok none

/-- Reads the type pattern of an argument rule. -/
def readArgument (argument : ArgumentDraft) : Except RuleError ArgumentRule :=
  argument.constraint.compile.map fun selector =>
    { selector, transform? := argument.transform?, moveToLast := argument.moveToLast }

/-- The rule that has been put together, or the first fault of the draft. -/
def build (draft : Draft) : Except RuleError Rule := do
  let signature ← draft.readSignature
  draft.checkModifiers
  let target? ← draft.readTarget
  let arguments ← draft.arguments.mapM readArgument
  return { signature, rename? := draft.rename?, reorder? := draft.reorder?, arguments, target? }

end Draft

end CallRefactor
