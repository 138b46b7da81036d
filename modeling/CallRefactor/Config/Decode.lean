import CallRefactor.Config.Basic
import CallRefactor.Toml.Document

/-!
# Reading configurations

A configuration is written as a table, or as the list of its fields in order, in which fields may be
left out at the end; the same holds for each of its entries for arguments. A table has no unknown
key. The absent value stands for an optional field that is not there.

Documents differ in one respect: a strict one has no list with more items than there are fields,
while any other has its surplus items ignored.
-/

namespace CallRefactor

namespace Value

/-! ## Plain values -/

/-- The text that a value is. -/
def text? : Value → Option String
  | .text value => some value
  | _ => none

/-- The truth value that a value is. -/
def boolean? : Value → Option Bool
  | .boolean value => some value
  | _ => none

/-- The position that a value is: an integer of 64 bits that is not negative. -/
def position? : Value → Option Nat
  | .integer value => if 0 ≤ value ∧ value < UInt64.size then some value.toNat else none
  | _ => none

/-- The reorder key that a value is, by position or by name. -/
def reorderKey? : Value → Option ReorderKey
  | .text name => some (.name name)
  | other => other.position?.map .position

/-- The list that a value is, with its items read one by one. -/
def listOf? {α : Type} (item? : Value → Option α) : Value → Option (List α)
  | .list items => items.mapM item?
  | _ => none

/-! ## Fields -/

/-- The values of fields, by the names of the fields. -/
def fields? (strict : Bool) (names : List String) : Value → Option (List (String × Value))
  | .table entries => if entries.all fun entry => names.contains entry.1 then some entries else none
  | .list items =>
    if strict ∧ names.length < items.length then none else some (names.zip items)
  | _ => none

end Value

/-- Reads a field that has to be there. -/
def requiredField? {α : Type} (fields : List (String × Value)) (name : String)
    (read? : Value → Option α) : Option α :=
  (fields.lookup name).bind read?

/-- Reads a field that may be absent. -/
def optionalField? {α : Type} (fields : List (String × Value)) (name : String)
    (read? : Value → Option α) : Option (Option α) :=
  match fields.lookup name with
  | none => some none
  | some .null => some none
  | some value => (read? value).map some

/-- Reads a field that has a value when it is left out. -/
def defaultField? {α : Type} (fields : List (String × Value)) (name : String) (default : α)
    (read? : Value → Option α) : Option α :=
  match fields.lookup name with
  | none => some default
  | some value => read? value

/-- Reads an entry for arguments. -/
def ArgumentConfig.ofValue? (strict : Bool) (value : Value) : Option ArgumentConfig := do
  let fields ← value.fields? strict ["position", "type", "move_to_last"]
  let position? ← optionalField? fields "position" Value.position?
  let type? ← optionalField? fields "type" Value.text?
  let moveToLast ← defaultField? fields "move_to_last" false Value.boolean?
  return { position?, type?, moveToLast }

namespace Config

/-- Reads a configuration. -/
def ofValue? (strict : Bool) (value : Value) : Option Config := do
  let fields ← value.fields? strict
    ["signature", "rename", "reorder_arguments", "arguments", "retarget_to_static",
      "retarget_to_variable"]
  let signature ← requiredField? fields "signature" Value.text?
  let rename? ← optionalField? fields "rename" Value.text?
  let reorder? ← optionalField? fields "reorder_arguments" (Value.listOf? Value.reorderKey?)
  let arguments ←
    defaultField? fields "arguments" [] (Value.listOf? (ArgumentConfig.ofValue? strict))
  let targetClass? ← optionalField? fields "retarget_to_static" Value.text?
  let targetVariable? ← optionalField? fields "retarget_to_variable" Value.text?
  return { signature, rename?, reorder?, arguments, targetClass?, targetVariable? }

/-- Reads a configuration written in TOML. -/
def ofToml? (text : String) : Option Config := do
  ofValue? false (← Toml.parse? text)

end Config

end CallRefactor
