import CallRefactor.Pattern.Path

/-!
# Patterns of argument types

The pattern of an argument's type is a path pattern in which a plain name also stands for the type
of that name in the package `java.lang`. A name is plain if it has neither dot nor star.
-/

namespace CallRefactor

open Pattern

/-- A pattern of the types that arguments may have. -/
structure TypePattern where
  /-- The text of the pattern, as it was given. -/
  text : String
  /-- The pattern of the qualified type. -/
  path : Path
  /-- The pattern is a plain name and may stand for a type of `java.lang`. -/
  plain : Bool
deriving DecidableEq

namespace TypePattern

/-- Whether a type pattern is a plain name, which may have dimensions. -/
def isPlain (cs : List Char) : Bool := cs.all fun c => c ≠ '.' && c ≠ '*'

/-- Reads a type pattern. Blanks around it are skipped. -/
def parse (text : String) : Except PatternError TypePattern :=
  let cs := Text.trimWhile Unicode.isBlank text.toList
  (Path.parse cs).map fun path => ⟨text, path, isPlain cs⟩

/-- The expression of a type pattern. In front of a plain name the package may be left out. -/
def regex (pattern : TypePattern) : Regex :=
  if pattern.plain then .optional (.ofText "java.lang.".toList) ++ pattern.path.regex
  else pattern.path.regex

/-- Whether a type pattern fits a qualified type. -/
def matchesType (pattern : TypePattern) (type : List Char) : Bool :=
  pattern.regex.accepts type

end TypePattern

end CallRefactor
