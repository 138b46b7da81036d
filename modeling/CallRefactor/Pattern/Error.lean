/-!
# Malformed patterns

What can be wrong with the text of a pattern. Messages that name a part of the pattern show it as it
was read, without the blanks around it.
-/

namespace CallRefactor

/-- Why a text is no pattern. -/
inductive PatternError where
  /-- A signature has no opening parenthesis. -/
  | noArgumentList
  /-- A signature goes on after its argument list, or never closes it. -/
  | openArgumentList
  /-- A parenthesis stands inside the argument list. -/
  | nestedParenthesis
  /-- A signature has no blank between a type and a name. -/
  | noName
  /-- A type pattern has nothing before its dimensions. -/
  | emptyType (pattern : String)
  /-- A type pattern has nothing between two dots, or at one of its ends. -/
  | emptySegment (pattern : String)
  /-- A type pattern holds a character that no pattern may hold. -/
  | invalidCharacter (pattern : String)
  /-- A name pattern is empty or holds a character that no pattern may hold. -/
  | invalidName (pattern : String)
  /-- There is nothing between two commas of an argument list, or at one of its ends. -/
  | emptyArgument
  /-- An argument list has a second ellipsis. -/
  | repeatedEllipsis
deriving DecidableEq

/-- The wording of an error. -/
def PatternError.reason : PatternError → String
  | .noArgumentList => "missing `(`"
  | .openArgumentList => "must end with `)`"
  | .nestedParenthesis => "unbalanced parentheses"
  | .noName => "expected `<type> <name>(..)`"
  | .emptyType pattern => s!"empty type pattern in `{pattern}`"
  | .emptySegment pattern => s!"empty segment in type pattern `{pattern}`"
  | .invalidCharacter pattern => s!"invalid character in type pattern `{pattern}`"
  | .invalidName pattern => s!"invalid method name pattern `{pattern}`"
  | .emptyArgument => "empty argument pattern"
  | .repeatedEllipsis => "`..` may appear only once in the argument list"

end CallRefactor
