import CallRefactor.Pattern.Regex

/-!
# Globs

A pattern over a sequence is a list of items: some stand for one element of the sequence, and a gap
stands for any run of elements that may be skipped, the empty run included. The same scheme serves
at three levels: letters of a word, packages of a type, and arguments of a call.

A glob is a pattern over the characters of one word. Letters stand for themselves and a star for
any run of the characters that the context allows.
-/

namespace CallRefactor.Pattern

/-- An item of a pattern over a sequence. -/
inductive Item (β : Type) where
  /-- One element, as `b` says. -/
  | one (b : β)
  /-- A run of elements that may be skipped. -/
  | gap
deriving DecidableEq

/-- An item of a glob other than a star. -/
inductive Letter where
  /-- This very character. -/
  | exactly (c : Char)
  /-- Any one of the characters that a star may stand for. -/
  | anyOne
deriving DecidableEq

/-- The characters that a letter stands for, where a star stands for those of `wild`. -/
def Letter.charClass (wild : CharClass) : Letter → CharClass
  | .exactly c => .exactly c
  | .anyOne => wild

/-- A pattern over the characters of a word. -/
abbrev Glob := List (Item Letter)

namespace Glob

/-- The glob in which every star is a gap and every other character stands for itself. -/
def ofStars (cs : List Char) : Glob :=
  cs.map fun c => if c = '*' then .gap else .one (.exactly c)

/-- The glob for words that are nonempty runs. -/
def anyRun : Glob := [.one .anyOne, .gap]

/-- The expression of a glob, where a star stands for the characters of `wild`. -/
def regex (wild : CharClass) : Glob → Regex
  | [] => .empty
  | .one letter :: rest => .char (letter.charClass wild) ++ regex wild rest
  | .gap :: rest => .star (.char wild) ++ regex wild rest

end Glob

/-- The characters of which the words of a pattern are made: letters and numbers of every script,
the low line, the dollar sign and the star. -/
def isPatternChar (c : Char) : Bool :=
  Unicode.isAlphanumeric c || c = '_' || c = '$' || c = '*'

end CallRefactor.Pattern
