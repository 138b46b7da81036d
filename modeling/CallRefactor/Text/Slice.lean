import CallRefactor.Span
import CallRefactor.Text.Utf8

/-!
# The text under a span

Spans come from whoever parsed the text. One that does not lie on boundaries of the text has no
text under it; where a text is needed all the same, it is read as empty, so that a bad span spoils
only the part that it describes.
-/

namespace CallRefactor.Text

/-- The text under a span, or `none` unless both its ends are boundaries of the text. -/
def slice? (text : String) (span : Span) : Option String :=
  (between? span.start span.stop text.toList).map String.ofList

/-- The text under a span; empty where there is none. -/
def slice (text : String) (span : Span) : String :=
  String.ofList (between span.start span.stop text.toList)

theorem slice_eq_getD (text : String) (span : Span) :
    slice text span = (slice? text span).getD "" := by
  simp only [slice, slice?, between]
  cases between? span.start span.stop text.toList <;> rfl

end CallRefactor.Text
