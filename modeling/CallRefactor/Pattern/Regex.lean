import CallRefactor.Unicode.Word

/-!
# Regular expressions

A pattern is compared with a text by way of a regular expression, which has to fit the text as a
whole. The expressions are those that patterns need: classes of characters, one expression behind
another, repetitions and parts that may be left out.

`accepts` reads the text from its start. What may follow what has been read is kept as a list of
expressions without repetitions, and there are never more of them than the expression is large.
-/

namespace CallRefactor.Pattern

/-- A class of characters. -/
inductive CharClass where
  /-- This very character. -/
  | exactly (c : Char)
  /-- Every character but these. -/
  | noneOf (cs : List Char)
  /-- The characters of words, and these. -/
  | wordOr (cs : List Char)
deriving DecidableEq

/-- Whether a class has a character. -/
def CharClass.has : CharClass → Char → Bool
  | exactly d, c => d = c
  | noneOf cs, c => !cs.contains c
  | wordOr cs, c => Unicode.isWordChar c || cs.contains c

/-- A regular expression. -/
inductive Regex where
  /-- The empty text. -/
  | empty
  /-- One character of a class. -/
  | char (k : CharClass)
  /-- A text of the first expression, and behind it one of the second. -/
  | append (r s : Regex)
  /-- Any number of texts of an expression, one behind the other. -/
  | star (r : Regex)
  /-- A text of an expression, or the empty text. -/
  | optional (r : Regex)
deriving DecidableEq

namespace Regex

instance : Append Regex := ⟨append⟩

/-- One text of an expression at least. -/
def plus (r : Regex) : Regex := r ++ star r

/-- This very text. -/
def ofText (cs : List Char) : Regex :=
  cs.foldr (fun c r => char (.exactly c) ++ r) empty

/-- Whether an expression fits the empty text. -/
def nullable : Regex → Bool
  | empty => true
  | char _ => false
  | append r s => r.nullable && s.nullable
  | star _ => true
  | optional _ => true

/-- The expressions of what may follow a character that a text begins with. -/
def derivatives (c : Char) : Regex → List Regex
  | empty => []
  | char k => if k.has c then [empty] else []
  | append r s =>
    (derivatives c r).map (· ++ s) ++ if r.nullable then derivatives c s else []
  | star r => (derivatives c r).map (· ++ star r)
  | optional r => derivatives c r

/-- The expressions of what may follow once a text has been read. -/
def rest (states : List Regex) (cs : List Char) : List Regex :=
  cs.foldl (fun states c => (states.flatMap (derivatives c)).eraseDups) states

/-- Whether an expression fits the whole of a text. -/
def accepts (r : Regex) (cs : List Char) : Bool :=
  (rest [r] cs).any nullable

end Regex

end CallRefactor.Pattern
