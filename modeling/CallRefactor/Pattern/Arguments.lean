import CallRefactor.Pattern.TypePattern

/-!
# Patterns of argument lists

An argument list pattern has one type pattern for each argument, and at most one ellipsis for any
number of arguments of any type. It is compared with the argument types as one text, in which they
are joined by commas.
-/

namespace CallRefactor

open Pattern

/-- A pattern over the argument types of a call. A gap stands for arguments of any type. -/
abbrev ArgumentsPattern := List (Item TypePattern)

namespace ArgumentsPattern

/-! ## Reading -/

/-- The element that stands for any number of arguments. -/
def ellipsis : List Char := ['.', '.']

/-- Reads one element of an argument list, which has no blanks around it. -/
def element (cs : List Char) : Except PatternError (Item TypePattern) :=
  if cs.isEmpty then .error .emptyArgument
  else if cs = ellipsis then .ok .gap
  else (TypePattern.parse (String.ofList cs)).map .one

/-- Reads an argument list without its parentheses. A blank list has no elements. -/
def parse (cs : List Char) : Except PatternError ArgumentsPattern :=
  let inner := Text.trimWhile Unicode.isBlank cs
  let elements := (Text.splitOn ',' inner).map (Text.trimWhile Unicode.isBlank)
  if inner.isEmpty then .ok []
  else if 1 < elements.count ellipsis then .error .repeatedEllipsis
  else elements.mapM element

/-! ## Matching -/

/-- The comma between two types. -/
def comma : Regex := .char (.exactly ',')

/-- Any one type. -/
def anyType : Regex := .plus (.char (.noneOf [',']))

/-- Any number of types with a comma in front of each of them. -/
def moreTypes : Regex := .star (comma ++ anyType)

/-- The expression of the elements of an argument list. A type pattern has a comma in front of it if
the elements are `separated` from a type pattern before them. -/
def elementsRegex (separated : Bool) : ArgumentsPattern → Regex
  | [] => .empty
  | .one p :: rest =>
    (if separated then comma ++ p.regex else p.regex) ++ elementsRegex true rest
  | .gap :: rest => moreTypes ++ elementsRegex separated rest

/-- The expression of an argument list. Behind an ellipsis at the front no comma is left for the
first type pattern, so the ellipsis brings it along. -/
def regex : ArgumentsPattern → Regex
  | [.gap] => .optional (anyType ++ moreTypes)
  | .gap :: rest => .star (anyType ++ comma) ++ elementsRegex false rest
  | pattern => elementsRegex false pattern

/-- Whether a pattern fits argument types joined by commas. -/
def matchesJoined (pattern : ArgumentsPattern) (types : List Char) : Bool :=
  pattern.regex.accepts types

end ArgumentsPattern

end CallRefactor
