import CallRefactor.Pattern.Arguments
import CallRefactor.Pattern.NamePattern
import CallRefactor.Syntax.Call

/-!
# Signatures

A signature selects calls. It is written as the pattern of the declaring type, blanks, the pattern
of the method name, and in parentheses the patterns of the argument types. Of several faults in a
signature the one reported is the first in this order: parentheses, the blank before the name, the
type, the name, the arguments.
-/

namespace CallRefactor

/-- A pattern of method calls. -/
structure Signature where
  /-- The text of the signature, as it was given. -/
  text : String
  /-- The pattern of the declaring type. -/
  owner : Pattern.Path
  /-- The pattern of the method name. -/
  name : NamePattern
  /-- The pattern of the argument types. -/
  arguments : ArgumentsPattern
deriving DecidableEq

namespace Signature

/-! ## Reading -/

/-- Cuts a signature into what stands before the parentheses and what stands between them. -/
def cutArguments (cs : List Char) : Except PatternError (List Char × List Char) :=
  match Text.breakAt? ['('] cs with
  | none => .error .noArgumentList
  | some (head, tail) =>
    match Text.dropEnding? [')'] tail with
    | none => .error .openArgumentList
    | some inner =>
      if inner.any fun c => c = '(' || c = ')' then .error .nestedParenthesis
      else .ok (head, inner)

/-- Cuts the head of a signature at its last blank into the type and the name. -/
def cutName (head : List Char) : Except PatternError (List Char × List Char) :=
  match Text.splitLast? Unicode.isBlank (Text.dropEndWhile Unicode.isBlank head) with
  | none => .error .noName
  | some (type, name) => .ok (Text.trimWhile Unicode.isBlank type, name)

/-- Reads a signature. Blanks around it are skipped. -/
def parse (text : String) : Except PatternError Signature := do
  let (head, inner) ← cutArguments (Text.trimWhile Unicode.isBlank text.toList)
  let (type, name) ← cutName head
  let owner ← Pattern.Path.parse type
  let name ← NamePattern.parse name
  let arguments ← ArgumentsPattern.parse inner
  return ⟨text, owner, name, arguments⟩

/-! ## Matching -/

/-- Whether the declaring type fits. -/
def matchesOwner (signature : Signature) (type : String) : Bool :=
  signature.owner.matchesPath type.toList

/-- Whether the method name fits. -/
def matchesName (signature : Signature) (name : String) : Bool :=
  signature.name.matchesName name.toList

/-- Whether the argument types fit, joined by commas. -/
def matchesArguments (signature : Signature) (types : String) : Bool :=
  signature.arguments.matchesJoined types.toList

/-- Whether a signature selects a call. A call whose declaring type or argument types are not all
known is never selected. -/
def selects (signature : Signature) (call : Call) : Bool :=
  match call.owner, call.argumentTypes? with
  | some owner, some types =>
    signature.matchesOwner owner && signature.matchesName call.callee.name.name
      && signature.matchesArguments types
  | _, _ => false

end Signature

end CallRefactor
