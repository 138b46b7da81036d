import CallRefactor.Edit.Compose
import CallRefactor.Fix.Conflict
import CallRefactor.Literal.Edit
import CallRefactor.Rule.Basic

/-!
# Fixes of one call

A rule changes a call that it selects in three phases, none of which sees what the others do: the
name, the arguments, and the receiver. The argument phase either puts the arguments into a new
order, all or nothing, or changes single arguments by their rules. `Rule.fix` gathers the edits of
the three phases, sorted by span.
-/

namespace CallRefactor

/-- What a rule does to one call. -/
structure CallFix where
  /-- The call. -/
  call : Span
  /-- The edits, sorted by span. -/
  edits : List Edit
  /-- The parts of the rule that could not be carried out. -/
  conflicts : List Conflict
deriving DecidableEq

namespace Rule

/-! ## The text of an argument -/

/-- The edits of the literals of an argument under a transform. -/
def literalEdits (text : String) (transform : LiteralTransform) (argument : Expr) : List Edit :=
  argument.literals.filterMap fun (span, value) => value.edit? text span transform

/-- The transform of the rule for an argument at a position. -/
def transform? (rule : Rule) (index : Nat) (argument : Expr) : Option LiteralTransform :=
  (ArgumentRule.resolve? rule.arguments index argument.type?).bind ArgumentRule.transform?

/-- The text of an argument with its literals changed by the rule for it at a position. -/
def argumentText (rule : Rule) (text : String) (index : Nat) (argument : Expr) :
    Except Fault String :=
  match rule.transform? index argument with
  | none => .ok (Text.slice text argument.span)
  | some transform =>
    (Edit.compose text argument.span (literalEdits text transform argument)).map fun composed? =>
      composed?.getD (Text.slice text argument.span)

/-! ## Phases -/

/-- The edits of the name. -/
def renameEdits (rule : Rule) (call : Call) : List Edit :=
  match rule.rename? with
  | some name => [⟨call.callee.name.span, name⟩]
  | none => []

/-- The edits that put the arguments from a position on into the order of the keys. Keys beyond the
last argument have no effect. -/
def reorderFrom (rule : Rule) (text : String) (call : Call) (method : Method) :
    Nat → List ReorderKey → List Expr → ExceptT Conflict (Except Fault) (List Edit)
  | position, key :: keys, slot :: slots => do
    let some source := key.parameter? method
      | throw (.unresolvedTarget call.span (toString key))
    if source = position then reorderFrom rule text call method (position + 1) keys slots
    else
      let some argument := call.arguments[source]?
        | throw (.unresolvedTarget call.span (toString key))
      let replacement ← ExceptT.lift (rule.argumentText text position argument)
      let rest ← reorderFrom rule text call method (position + 1) keys slots
      return ⟨slot.span, replacement⟩ :: rest
  | _, _, _ => return []

/-- The edits that put the arguments into the order of the keys, or the conflict that keeps all of
them from moving. -/
def reorderEdits (rule : Rule) (text : String) (call : Call) (keys : List ReorderKey) :
    ExceptT Conflict (Except Fault) (List Edit) :=
  match call.method with
  | none => throw (.unsupported call.span .unknownMethod)
  | some method => rule.reorderFrom text call method 0 keys call.arguments

/-- Whether the rule for an argument at a position moves it behind the others. -/
def movesToLast (rule : Rule) (index : Nat) (argument : Expr) : Bool :=
  (ArgumentRule.resolve? rule.arguments index argument.type?).any ArgumentRule.moveToLast

/-- The arguments with their positions, those that move to the end behind those that stay. -/
def arrange (rule : Rule) (arguments : List Expr) : List (Expr × Nat) :=
  let numbered := arguments.zipIdx
  numbered.filter (fun (argument, index) => !rule.movesToLast index argument)
    ++ numbered.filter fun (argument, index) => rule.movesToLast index argument

/-- The edit that puts an argument into a slot, or `none` if the text there stays the same. -/
def slotEdit? (rule : Rule) (text : String) (slot argument : Expr) (index : Nat) :
    Except Fault (Option Edit) :=
  (rule.argumentText text index argument).map fun replacement =>
    if replacement = Text.slice text slot.span then none else some ⟨slot.span, replacement⟩

/-- The edits that change single arguments by their rules. -/
def transformEdits (rule : Rule) (text : String) (call : Call) : Except Fault (List Edit) :=
  let placed := call.arguments.zip (rule.arrange call.arguments)
  (placed.mapM fun (slot, argument, index) => rule.slotEdit? text slot argument index).map
    (List.filterMap id)

/-- The edits of the arguments and the conflict that takes their place. -/
def argumentEdits (rule : Rule) (text : String) (call : Call) :
    Except Fault (List Edit × List Conflict) :=
  match rule.reorder? with
  | some keys =>
    (rule.reorderEdits text call keys).run.map fun
      | .ok edits => (edits, [])
      | .error conflict => ([], [conflict])
  | none =>
    if rule.arguments.isEmpty then .ok ([], [])
    else (rule.transformEdits text call).map fun edits => (edits, [])

/-- The edits of the receiver. A call without one gets it in front of the name. -/
def targetEdits (rule : Rule) (call : Call) : List Edit :=
  match rule.target?, call.callee with
  | none, _ => []
  | some target, .qualified receiver _ => [⟨receiver.span, target.receiver⟩]
  | some target, .bare name => [Edit.insertion name.span.start (target.receiver ++ ".")]

/-! ## All phases -/

/-- Whether each edit of a list ends before the next one starts, or where it starts. -/
def inSequence : List Edit → Bool
  | a :: b :: rest => a.span.stop ≤ b.span.start && inSequence (b :: rest)
  | _ => true

/-- What a rule does to a call, which it is taken to select. -/
def fix (rule : Rule) (text : String) (call : Call) : Except Fault CallFix := do
  let (argumentEdits, conflicts) ← rule.argumentEdits text call
  let edits := Edit.sort (rule.renameEdits call ++ argumentEdits ++ rule.targetEdits call)
  if inSequence edits then return ⟨call.span, edits, conflicts⟩
  else throw (.overlappingFixes edits)

/-- What a rule does to a call, or `none` if it does not select it. -/
def fix? (rule : Rule) (text : String) (call : Call) : Except Fault (Option CallFix) :=
  if rule.signature.selects call then (rule.fix text call).map some else .ok none

end Rule

end CallRefactor
