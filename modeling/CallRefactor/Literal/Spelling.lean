import CallRefactor.Decimal.Notation
import CallRefactor.Literal.Basic
import CallRefactor.Text.Hex
import CallRefactor.Unicode.Control

/-!
# How literal values are spelled

The text of a value between the quotes of its token, or the whole of it for a value without quotes.
In strings and characters the backslash, the quote of their own kind and the control characters
stand behind a backslash; other characters stand for themselves.
-/

namespace CallRefactor

/-! ## Escapes -/

/-- Whether a character is an octal digit. -/
def isOctalDigit (c : Char) : Bool := '0' ≤ c && c ≤ '7'

/-- A character as it stands in a token with the given quote, before `next`. A null is written in
its short form unless an octal digit follows, with which it would make a longer octal escape. -/
def escapeChar (quote c : Char) (next : Option Char) : List Char :=
  match c with
  | '\\' => ['\\', '\\']
  | '\n' => ['\\', 'n']
  | '\r' => ['\\', 'r']
  | '\t' => ['\\', 't']
  | '\x08' => ['\\', 'b']
  | '\x0c' => ['\\', 'f']
  | c =>
    if c = '\x00' ∧ ¬ next.any isOctalDigit then ['\\', '0']
    else if c = quote then ['\\', c]
    else if Unicode.isControl c then '\\' :: 'u' :: Text.hex4 c.toNat
    else [c]

/-- A text as it stands in a token with the given quote. -/
def escape (quote : Char) : List Char → List Char
  | [] => []
  | c :: cs => escapeChar quote c cs.head? ++ escape quote cs

namespace Literal

/-! ## Values -/

/-- A value as readers see it, without quotes and escapes. -/
def display : Literal → String
  | .string value => value
  | .char value => value.toString
  | .int value => toString value.toInt
  | .long value => toString value.toInt
  | .float bits => (Decimal.binary32.decode bits.toNat).written
  | .double bits => (Decimal.binary64.decode bits.toNat).written
  | .boolean value => if value then "true" else "false"
  | .null => "null"

/-- The quote around the tokens of a value. -/
def quote? : Literal → Option Char
  | .string _ => some '"'
  | .char _ => some '\''
  | _ => none

/-- A value as it is spelled inside its token. -/
def spelling (value : Literal) : List Char :=
  match value.quote? with
  | some quote => escape quote value.display.toList
  | none => value.display.toList

example : (Literal.string "a\"\x001").spelling = "a\\\"\\u00001".toList := by decide +kernel

end Literal

end CallRefactor
