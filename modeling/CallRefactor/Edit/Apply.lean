import CallRefactor.Edit.Normalize

/-!
# Applying edits

`Edit.applyAll` brings a list of edits into normal form and then carries the edits out from the
last to the first, so that the spans of those still to come stay valid.
-/

namespace CallRefactor.Edit

/-- A text after one edit; unchanged if the edit does not fit it. -/
def substitute (edit : Edit) (text : List Char) : List Char :=
  match Text.splitAt? edit.span.start text with
  | none => text
  | some (before, tail) =>
    match Text.splitAt? edit.span.length tail with
    | none => text
    | some (_, after) => before ++ edit.replacement.toList ++ after

/-- Carries out edits from the last to the first. -/
def substituteAll (edits : List Edit) (text : List Char) : List Char :=
  edits.foldr substitute text

/-- The text after all edits, or why they do not fit it. -/
def applyAll (text : String) (edits : List Edit) : Except EditError String :=
  match normalize text edits with
  | .error refusal => .error refusal.error
  | .ok normal => .ok (String.ofList (substituteAll normal text.toList))

end CallRefactor.Edit
