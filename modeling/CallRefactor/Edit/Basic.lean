import CallRefactor.Span

/-!
# Edits

An edit replaces the part of a text under a span. A list of edits is read against one unchanged
text: all spans are offsets into the text before any edit.
-/

namespace CallRefactor

/-- The replacement of the text under a span. -/
@[ext] structure Edit where
  /-- The part of the text that is replaced. -/
  span : Span
  /-- The text that is written instead. -/
  replacement : String
deriving DecidableEq

namespace Edit

/-- The edit that writes `text` at an offset and replaces nothing. -/
def insertion (offset : Nat) (text : String) : Edit := ⟨.point offset, text⟩

/-- Sorts edits by span. Edits of equal span keep their order. -/
def sort (edits : List Edit) : List Edit := Span.sortOn Edit.span edits

end Edit

/-- Why a list of edits does not fit a text. -/
inductive EditError where
  /-- The span ends beyond the text, which has `length` bytes. -/
  | outOfBounds (span : Span) (length : Nat)
  /-- The offset lies inside a character. -/
  | offBoundary (offset : Nat)
  /-- Two of the edits overlap. -/
  | overlapping (first second : Span)
deriving DecidableEq

/-- The wording of an error. -/
def EditError.message : EditError → String
  | .outOfBounds span length =>
    s!"edit range {span} is out of bounds for text length {length}"
  | .offBoundary offset => s!"offset {offset} is not a UTF-8 character boundary"
  | .overlapping first second => s!"overlapping edits: {first} overlaps {second}"

end CallRefactor
