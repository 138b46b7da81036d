import CallRefactor.Syntax.Expr

/-!
# Method calls

A call as its host has parsed and resolved it: spans into the text, qualified type names, and the
declaration of the method where that is known.
-/

namespace CallRefactor

/-- A name token. -/
structure Ident where
  /-- The name. -/
  name : String
  /-- Where it stands. -/
  span : Span
deriving DecidableEq

/-- A declared parameter. -/
structure Parameter where
  /-- The name of the parameter. -/
  name : String
  /-- Its qualified type. -/
  type : String
deriving DecidableEq

/-- The declaration of a method. -/
structure Method where
  /-- The name of the method. -/
  name : String
  /-- Its parameters in order. -/
  parameters : List Parameter
deriving DecidableEq

/-- The position of the first parameter of that name. -/
def Method.position? (method : Method) (name : String) : Option Nat :=
  method.parameters.findIdx? fun parameter => parameter.name = name

/-- How a call names its method. -/
inductive Callee where
  /-- A name alone. -/
  | bare (name : Ident)
  /-- A name behind a receiver, which may be any expression. -/
  | qualified (receiver : Expr) (name : Ident)

/-- The name of the method. -/
def Callee.name : Callee → Ident
  | .bare name => name
  | .qualified _ name => name

/-- A method call. -/
structure Call where
  /-- Where the call stands. -/
  span : Span
  /-- The name and, if there is one, the receiver. -/
  callee : Callee
  /-- The arguments in order. -/
  arguments : List Expr
  /-- The qualified type that declares the method, if it is known. -/
  owner : Option String
  /-- The declaration of the method, if it is known. -/
  method : Option Method

/-- The qualified types of the arguments, joined by commas, if all of them are known. -/
def Call.argumentTypes? (call : Call) : Option String :=
  (call.arguments.mapM Expr.type?).map (",".intercalate ·)

end CallRefactor
