import CallRefactor.Rule.Argument

/-!
# Rules

A rule selects calls by a signature and says what to change in them: the name of the method, the
order of the arguments or the arguments themselves, and what the method is called on. The three
changes are independent of each other.
-/

namespace CallRefactor

/-! ## New order of arguments -/

/-- The parameter whose argument comes to stand at the place of the key. -/
inductive ReorderKey where
  /-- The parameter at a declared position. -/
  | position (index : Nat)
  /-- The first parameter of a name. -/
  | name (name : String)
deriving DecidableEq

namespace ReorderKey

/-- A key as messages show it. -/
protected def toString : ReorderKey → String
  | .position index => s!"#{index}"
  | .name given => given

instance : ToString ReorderKey := ⟨ReorderKey.toString⟩

/-- The declared position of the parameter that a key names. -/
def parameter? (method : Method) : ReorderKey → Option Nat
  | .position index => if index < method.parameters.length then some index else none
  | .name given => method.position? given

end ReorderKey

/-! ## New receiver -/

/-- What the calls are to be made on. -/
inductive Target where
  /-- A class, by its qualified name. -/
  | onClass (className : String)
  /-- A variable. -/
  | onVariable (name : String)
deriving DecidableEq

/-- The simple name of a class: what follows the last dot, where a dollar sign separates an inner
class from the one around it and is written as a dot. -/
def simpleName (className : List Char) : List Char :=
  let last := ((Text.splitOn '.' className).getLast?).getD []
  last.map fun c => if c = '$' then '.' else c

/-- The receiver that is written in the calls. -/
def Target.receiver : Target → String
  | .onClass className => String.ofList (simpleName className.toList)
  | .onVariable name => name

example : simpleName "a.B$C".toList = "B.C".toList := by decide

/-! ## Rules -/

/-- Which calls to change, and how. -/
structure Rule where
  /-- The calls that the rule is for. -/
  signature : Signature
  /-- The new name of the method. -/
  rename? : Option String := none
  /-- The new order of the arguments. -/
  reorder? : Option (List ReorderKey) := none
  /-- The rules for single arguments, which apply where no new order is given. -/
  arguments : List ArgumentRule := []
  /-- What the method is to be called on. -/
  target? : Option Target := none

end CallRefactor
