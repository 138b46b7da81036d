import CallRefactor.Pattern.Error
import CallRefactor.Pattern.Glob

/-!
# Patterns of method names

A star alone fits every name that is one nonempty line. In any other pattern a star stands for a
run of word characters and dollar signs, except that a star at the front stands for nothing: it
belongs to the type before the name.
-/

namespace CallRefactor

open Pattern

/-- A pattern of method names. -/
inductive NamePattern where
  /-- Every name. -/
  | any
  /-- The names that a glob fits. -/
  | like (glob : Glob)
deriving DecidableEq

namespace NamePattern

/-- A name pattern without its leading star. -/
def body : List Char → List Char
  | [] => []
  | c :: cs => if c = '*' then cs else c :: cs

/-- Reads a name pattern. -/
def parse (cs : List Char) : Except PatternError NamePattern :=
  if cs = ['*'] then .ok .any
  else if (body cs).isEmpty ∨ ¬ (body cs).all isPatternChar then
    .error (.invalidName (String.ofList cs))
  else .ok (.like (Glob.ofStars (body cs)))

/-- What a star of a name may stand for. -/
def nameChars : CharClass := .wordOr ['$']

/-- The expression of a name pattern. -/
def regex : NamePattern → Regex
  | .any => .plus (.char (.noneOf ['\n']))
  | .like glob => glob.regex nameChars

/-- Whether a name pattern fits a name. -/
def matchesName (pattern : NamePattern) (name : List Char) : Bool :=
  pattern.regex.accepts name

end NamePattern

end CallRefactor
