import CallRefactor.Fault
import CallRefactor.Text.Slice

/-!
# Composing edits of one expression

`Edit.compose` folds edits inside an expression into one new text for the whole of it. The text
between the edits is copied as it stands, with its spacing and comments.

Room for the new text is made first, as much as the expression takes up. An expression that is
longer than a text can be is a broken promise, even where no text stands under it.

A cursor moves through the sorted edits: it starts where the expression starts, and after each edit
it stands where the edit stops. Each edit has to lie inside the expression and not to start before
the cursor.
-/

namespace CallRefactor.Edit

/-- The text of an expression from the cursor to its end, with the edits carried out. -/
def composeFrom (text : String) (expression : Span) (cursor : Nat) :
    List Edit → Except Fault (List Char)
  | [] => .ok (Text.between cursor expression.stop text.toList)
  | edit :: rest =>
    if ¬ expression.Contains edit.span then .error (.escapes edit.span expression)
    else if edit.span.start < cursor then .error (.overlapsPrevious edit.span cursor)
    else
      (composeFrom text expression edit.span.stop rest).map fun tail =>
        Text.between cursor edit.span.start text.toList ++ edit.replacement.toList ++ tail

/-- The number of bytes for which room can be made: one less than half of all addresses of 64 bits.
A text that there is never has more bytes. -/
def capacity (text : String) : Nat := max 0x7fffffffffffffff (Text.byteLength text.toList)

/-- The text of an expression with the edits carried out, or `none` if there are none. -/
def compose (text : String) (expression : Span) (edits : List Edit) :
    Except Fault (Option String) :=
  if edits.isEmpty then .ok none
  else if capacity text < expression.length then .error .capacity
  else
    (composeFrom text expression expression.start (sort edits)).map fun out =>
      some (String.ofList out)

end CallRefactor.Edit
