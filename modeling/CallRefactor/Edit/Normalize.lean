import CallRefactor.Edit.Basic
import CallRefactor.Text.Utf8

/-!
# Normal form of a list of edits

`Edit.normalize` sorts a list of edits by span, refuses it unless every edit fits the text and no
two overlap, and joins edits that touch into one. In the result every edit ends strictly before the
next one starts.

The checks come in a fixed order, so a list with several faults has one error: first the fit of
each edit in sorted order, then the overlap of neighbours in sorted order.
-/

namespace CallRefactor.Edit

/-! ## Checks -/

/-- What keeps an edit from fitting a text: first that it ends beyond it, then that its start, then
that its stop is no boundary. -/
def misfit? (text : List Char) (edit : Edit) : Option EditError :=
  if Text.byteLength text < edit.span.stop then
    some (.outOfBounds edit.span (Text.byteLength text))
  else if ¬ Text.IsBoundary text edit.span.start then some (.offBoundary edit.span.start)
  else if ¬ Text.IsBoundary text edit.span.stop then some (.offBoundary edit.span.stop)
  else none

/-- Whether the first of two sorted edits gets in the way of the second: it stops behind where the
second one starts, or both are insertions at one offset. -/
def Obstructs (a b : Edit) : Prop :=
  b.span.start < a.span.stop ∨ (a.span.IsEmpty ∧ b.span.IsEmpty ∧ a.span = b.span)

instance (a b : Edit) : Decidable (a.Obstructs b) := inferInstanceAs (Decidable (_ ∨ _))

/-- The first two neighbours in a list of which one gets in the way of the other. -/
def overlap? : List Edit → Option EditError
  | a :: b :: rest =>
    if a.Obstructs b then some (.overlapping a.span b.span) else overlap? (b :: rest)
  | _ => none

/-- The error of a sorted list of edits, if it has one. -/
def fault? (text : List Char) (sorted : List Edit) : Option EditError :=
  (sorted.findSome? (misfit? text)).or (overlap? sorted)

/-! ## Joining edits that touch -/

/-- The edit that does the work of two that touch. -/
def join (a b : Edit) : Edit := ⟨a.span.hull b.span, a.replacement ++ b.replacement⟩

/-- Joins `last` with the edits after it as long as each starts where the one before ends. -/
def coalesceFrom (last : Edit) : List Edit → List Edit
  | [] => [last]
  | next :: rest =>
    if last.span.stop = next.span.start then coalesceFrom (last.join next) rest
    else last :: coalesceFrom next rest

/-- Joins every run of touching edits into one edit. -/
def coalesce : List Edit → List Edit
  | [] => []
  | first :: rest => coalesceFrom first rest

/-! ## Normal form -/

/-- A list of edits that was refused: why, and the edits as they were when it was found, sorted and
not joined. -/
structure Refusal where
  /-- The first fault of the sorted edits. -/
  error : EditError
  /-- The edits, sorted by span. -/
  sorted : List Edit
deriving DecidableEq

/-- The normal form of a list of edits of a text. -/
def normalize (text : String) (edits : List Edit) : Except Refusal (List Edit) :=
  match fault? text.toList (sort edits) with
  | some error => .error ⟨error, sort edits⟩
  | none => .ok (coalesce (sort edits))

end CallRefactor.Edit
