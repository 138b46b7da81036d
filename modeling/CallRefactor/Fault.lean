import CallRefactor.Edit.Basic
import CallRefactor.Text.Quoted

/-!
# Faults

A fault is a broken promise of the caller: a range that runs backwards, or fixes for one expression
or one call that get in each other's way. Well-formed calls give rise to none. A fault ends the
whole operation, unlike a conflict, which drops one part of it.
-/

namespace CallRefactor

/-- A broken promise of the caller. -/
inductive Fault where
  /-- The bounds of a range are in the wrong order. -/
  | reversed (start stop : Nat)
  /-- An expression is longer than a text can be. -/
  | capacity
  /-- An edit reaches beyond the expression that it is part of. -/
  | escapes (edit expression : Span)
  /-- An edit of an expression starts before the previous one ends. -/
  | overlapsPrevious (edit : Span) (cursor : Nat)
  /-- The sorted fixes of one call overlap. -/
  | overlappingFixes (edits : List Edit)
deriving DecidableEq

/-- An edit as messages show it. -/
def Edit.describe (edit : Edit) : String :=
  s!"TextEdit \x7b range: {edit.span}, replacement: {Text.quoted edit.replacement} \x7d"

/-- The wording of a fault. -/
def Fault.message : Fault → String
  | .reversed start stop => s!"invalid range: {start}..{stop}"
  | .capacity => "capacity overflow"
  | .escapes edit expression => s!"sub-edit {edit} escapes expression {expression}"
  | .overlapsPrevious edit cursor =>
    s!"sub-edit {edit} overlaps the previous one ending at {cursor}"
  | .overlappingFixes edits =>
    "overlapping fixes for one call site: [" ++ ", ".intercalate (edits.map Edit.describe) ++ "]"

/-- The span between two offsets, which have to be in order. -/
def Span.ofBounds (start stop : Nat) : Except Fault Span :=
  if h : start ≤ stop then .ok ⟨start, stop, h⟩ else .error (.reversed start stop)

end CallRefactor
