import CallRefactor.Text.Hex
import CallRefactor.Unicode.GraphemeExtend
import CallRefactor.Unicode.Unprintable

/-!
# Quoted text in messages

A text in double quotes as messages show it. A quote and a backslash stand behind a backslash, tab,
line feed, carriage return and null have a letter, and a character that could not be seen on its
own is written as its code point in braces. All else, single quotes and letters of every script
included, stands for itself.
-/

namespace CallRefactor.Text

/-- One character of a quoted text. -/
def quoteChar : Char → List Char
  | '"' => ['\\', '"']
  | '\\' => ['\\', '\\']
  | '\n' => ['\\', 'n']
  | '\t' => ['\\', 't']
  | '\r' => ['\\', 'r']
  | '\x00' => ['\\', '0']
  | c =>
    if Unicode.isCombining c || Unicode.isUnprintable c then
      ['\\', 'u', '\x7b'] ++ hex c.toNat ++ ['\x7d']
    else [c]

/-- A text in double quotes, as messages show it. -/
def quoted (s : String) : String :=
  String.ofList ('"' :: s.toList.flatMap quoteChar ++ ['"'])

example : ['a', '\'', '"'].flatMap quoteChar = ['a', '\'', '\\', '"'] := by decide +kernel

end CallRefactor.Text
