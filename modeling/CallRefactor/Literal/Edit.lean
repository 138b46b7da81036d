import CallRefactor.Edit.Basic
import CallRefactor.Literal.Spelling
import CallRefactor.Text.Slice
import CallRefactor.Text.Split

/-!
# Changing a literal token

A token keeps its quotes, sign and suffix when its value changes: the spelling of the old value is
found in the token and the spelling of the new value takes its place. A token that does not spell
its value in this library's way is left as it is, and so is one whose spelling does not change.

Main statements: `edit?_eq_none_iff`, which tokens are left as they are, and `edit?_eq_some_iff`,
what is put in the place of the others.
-/

namespace CallRefactor.Literal

/-- A token cut around the first place where it spells its value. The search begins behind the
opening quote, if the value has quotes and the token has one. -/
def locate? (value : Literal) (token : List Char) : Option (List Char × List Char) :=
  let opening := value.quote?.bind fun quote => Text.breakAt? [quote] token
  match value.quote?, opening with
  | some quote, some (lead, body) =>
    (Text.breakAt? value.spelling body).map fun (before, after) =>
      (lead ++ quote :: before, after)
  | _, _ => Text.breakAt? value.spelling token

/-- The token with the spelling of `changed` in the place of that of `value`, or `none` if the
value cannot be found or its spelling stays the same. -/
def respell? (token : List Char) (value changed : Literal) : Option (List Char) :=
  match value.locate? token with
  | none => none
  | some (before, after) =>
    if changed.spelling = value.spelling then none
    else some (before ++ changed.spelling ++ after)

/-- The edit that changes the token under a span, which has the given value. -/
def edit? (text : String) (span : Span) (value : Literal) (transform : LiteralTransform) :
    Option Edit :=
  (respell? (Text.slice text span).toList value (transform value)).map fun token =>
    ⟨span, String.ofList token⟩

variable {text : String} {span : Span} {value : Literal} {transform : LiteralTransform}

theorem edit?_eq_none_iff :
    value.edit? text span transform = none ↔
      value.locate? (Text.slice text span).toList = none ∨
        (transform value).spelling = value.spelling := by
  unfold edit? respell?
  rw [Option.map_eq_none_iff]
  split
  · next h => exact ⟨fun _ => .inl h, fun _ => rfl⟩
  · next h =>
    rw [h]
    split
    · next heq => exact ⟨fun _ => .inr heq, fun _ => rfl⟩
    · next hne => exact ⟨nofun, fun hor => absurd (hor.resolve_left nofun) hne⟩

/-- An edit changes the place where the value is found, and only to another spelling. -/
theorem edit?_eq_some_iff {e : Edit} :
    value.edit? text span transform = some e ↔
      ∃ before after, value.locate? (Text.slice text span).toList = some (before, after) ∧
        (transform value).spelling ≠ value.spelling ∧
        e = ⟨span, String.ofList (before ++ (transform value).spelling ++ after)⟩ := by
  unfold edit? respell?
  rw [Option.map_eq_some_iff]
  constructor
  · rintro ⟨token, htoken, rfl⟩
    split at htoken
    · cases htoken
    · next before after hcut =>
      split at htoken
      · cases htoken
      · next hne =>
        obtain rfl := Option.some.inj htoken
        exact ⟨before, after, hcut, hne, rfl⟩
  · rintro ⟨before, after, hcut, hne, rfl⟩
    rw [hcut]
    exact ⟨_, if_neg hne, rfl⟩

example : respell? "-7L".toList (.long 7) (.long 70) = some "-70L".toList := by decide +kernel

end CallRefactor.Literal
