import CallRefactor.Edit.Normalize

/-!
# Fixes of a whole file

A `FixList` gathers the edits of one call after another. The edits of a call are taken together or
not at all: one that overlaps an edit already held keeps out the whole batch, and what it collides
with is reported. So no two edits from different batches ever overlap.
-/

namespace CallRefactor

/-- The edits accepted so far, in the order in which they came. -/
structure FixList where
  /-- The accepted edits. -/
  held : List Edit := []
deriving DecidableEq

namespace FixList

instance : EmptyCollection FixList := ⟨⟨[]⟩⟩

/-- The span of the first held edit that overlaps the first edit of a batch to overlap any. -/
def clash? (fixes : FixList) (batch : List Edit) : Option Span :=
  batch.findSome? fun edit =>
    (fixes.held.find? fun other => other.span.Overlaps edit.span).map Edit.span

/-- Takes in a batch of edits, or gives the span of a held edit that it collides with. -/
def tryExtend (fixes : FixList) (batch : List Edit) : Except Span FixList :=
  match fixes.clash? batch with
  | some span => .error span
  | none => .ok ⟨fixes.held ++ batch⟩

/-- The normal form of the held edits as edits of a text. -/
def finish (fixes : FixList) (text : String) : Except EditError (List Edit) :=
  (Edit.normalize text fixes.held).mapError Edit.Refusal.error

end FixList

end CallRefactor
