/-!
# Values of configuration documents

The values that a document may hold, whatever the language it is written in. Entries of a table
stand in the order of the document, and no key occurs twice.
-/

namespace CallRefactor

/-- A value of a configuration document. -/
inductive Value where
  /-- The absent value, which not every language has. -/
  | null
  /-- A truth value. -/
  | boolean (value : Bool)
  /-- An integer. -/
  | integer (value : Int)
  /-- A number with a fraction or an exponent, in a written form. -/
  | real (written : String)
  /-- A date or a time, as it is written. -/
  | moment (written : String)
  /-- A text. -/
  | text (value : String)
  /-- A list of values. -/
  | list (items : List Value)
  /-- Values by their keys. -/
  | table (entries : List (String × Value))

instance : Inhabited Value := ⟨.null⟩

end CallRefactor
