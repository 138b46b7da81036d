import CallRefactor.Toml.Reader

/-!
# Strings of a TOML document

Strings in double quotes have escapes; strings in single quotes are taken as they stand. Three
quotes in place of one open a string of several lines, whose line ends all become line feeds and
which does not begin with the line end right behind the opening quotes. Such a string may end in up
to two more quotes of its own kind.
-/

namespace CallRefactor.Toml

/-! ## Escapes -/

/-- The value of a hexadecimal digit. -/
def hexValue? (c : Char) : Option Nat :=
  if '0' ≤ c ∧ c ≤ '9' then some (c.toNat - 0x30)
  else if 'a' ≤ c ∧ c ≤ 'f' then some (c.toNat - 0x57)
  else if 'A' ≤ c ∧ c ≤ 'F' then some (c.toNat - 0x37)
  else none

/-- The number that digits of a base denote. -/
def digitsValue (base : Nat) (digits : List Char) : Nat :=
  digits.foldl (fun n c => n * base + (hexValue? c).getD 0) 0

/-- The character of a code point, if it has one. -/
def charOfCode? (n : Nat) : Option Char :=
  if n.isValidChar then some (Char.ofNat n) else none

/-- Reads a code point of `count` hexadecimal digits. -/
def codePoint (count : Nat) : Reader Char := do
  let digits ← Reader.takeExactly count fun c => (hexValue? c).isSome
  match charOfCode? (digitsValue 16 digits) with
  | some c => return c
  | none => failure

/-- Reads an escape, from the backslash on. -/
def escaped : Reader Char := do
  Reader.exactly ['\\']
  match ← Reader.anyChar with
  | 'b' => return '\x08'
  | 't' => return '\t'
  | 'n' => return '\n'
  | 'f' => return '\x0c'
  | 'r' => return '\r'
  | '"' => return '"'
  | '\\' => return '\\'
  | 'u' => codePoint 4
  | 'U' => codePoint 8
  | _ => failure

/-! ## Strings of one line -/

/-- Reads a character other than the quote and the characters that need an escape. -/
def plain (quote : Char) : Reader Char := do
  let c ← Reader.anyChar
  if isPlainChar c ∧ c ≠ quote then return c else failure

/-- Reads one character of a string in double quotes. -/
def basicChar : Reader Char := do
  if (← Reader.peek?) = some '\\' then escaped else plain '"'

/-- Repeats a reader as long as it can read. -/
def many {α : Type} (item : Reader α) (cs : List Char) : List α × List Char :=
  match item cs with
  | none => ([], cs)
  | some (a, rest) =>
    if rest.length < cs.length then (a :: (many item rest).1, (many item rest).2) else ([], cs)
termination_by cs.length

/-- Reads a string in double quotes, on one line. -/
def basicString : Reader (List Char) := do
  Reader.exactly ['"']
  let body ← fun cs => some (many basicChar cs)
  Reader.exactly ['"']
  return body

/-- Reads a string in single quotes, on one line. -/
def literalString : Reader (List Char) := do
  Reader.exactly ['\'']
  let body ← fun cs => some (many (plain '\'') cs)
  Reader.exactly ['\'']
  return body

/-! ## Strings of several lines -/

/-- Skips a backslash at the end of a line together with the blanks and line ends behind it. -/
def joinLines : Reader Unit := do
  Reader.exactly ['\\']
  skipInline
  newline
  let _ ← fun cs => some (many ((do let _ ← Reader.takeSome isInlineBlank) <|> newline) cs)

/-- Reads one or two quotes that do not end a string, which another character has to follow. -/
def innerQuotes (quote : Char) : Reader (List Char) := do
  let quotes ← Reader.takeWhile (· = quote)
  if quotes.isEmpty ∨ 2 < quotes.length then failure else return quotes

/-- Reads a piece of a string of several lines in double quotes. -/
def basicPiece : Reader (List Char) :=
  (do joinLines; return []) <|> (do newline; return ['\n']) <|> (do return [← basicChar])
    <|> innerQuotes '"'

/-- Reads a piece of a string of several lines in single quotes. -/
def literalPiece : Reader (List Char) :=
  (do newline; return ['\n']) <|> (do return [← plain '\'']) <|> innerQuotes '\''

/-- Reads the closing quotes of a string of several lines and up to two quotes before them. -/
def closingQuotes (quote : Char) : Reader (List Char) := fun cs =>
  let count := min 5 (cs.takeWhile (· = quote)).length
  if count < 3 then none else some (List.replicate (count - 3) quote, cs.drop count)

/-- Reads a string of several lines, from the opening quotes on. -/
def linesString (quote : Char) (piece : Reader (List Char)) : Reader (List Char) := do
  Reader.exactly [quote, quote, quote]
  let _ ← Reader.optional newline
  let pieces ← fun cs => some (many piece cs)
  let last ← closingQuotes quote
  return pieces.flatten ++ last

/-- Reads a string of any kind. -/
def string : Reader String := do
  let cs ← linesString '"' basicPiece <|> basicString <|> linesString '\'' literalPiece
    <|> literalString
  return String.ofList cs

end CallRefactor.Toml
