/-!
# Reading characters

A reader takes characters from the front of a text and gives what it has read, or fails. It
consumes nothing when it fails, so a choice tries its alternatives at the same place.
-/

namespace CallRefactor.Toml

/-- Reads a value from the front of a text. -/
abbrev Reader := StateT (List Char) Option

namespace Reader

/-- The character at the front, which is left there. -/
def peek? : Reader (Option Char) := do return (← get).head?

/-- Reads the character at the front. -/
def anyChar : Reader Char := fun
  | [] => none
  | c :: rest => some (c, rest)

/-- Reads a text word for word. -/
def exactly (word : List Char) : Reader Unit := fun cs =>
  (word.isPrefixOf? cs).map fun rest => ((), rest)

/-- Reads as many characters as satisfy `p`, which may be none. -/
def takeWhile (p : Char → Bool) : Reader (List Char) := fun cs =>
  some (cs.takeWhile p, cs.dropWhile p)

/-- Reads one or more characters that satisfy `p`. -/
def takeSome (p : Char → Bool) : Reader (List Char) := do
  let cs ← takeWhile p
  if cs.isEmpty then failure else return cs

/-- Reads exactly `count` characters that satisfy `p`. -/
def takeExactly (count : Nat) (p : Char → Bool) : Reader (List Char) := fun cs =>
  if (cs.take count).length = count ∧ (cs.take count).all p then
    some (cs.take count, cs.drop count)
  else none

/-- Reads what `item` reads, if it can. -/
def optional {α : Type} (item : Reader α) : Reader (Option α) := some <$> item <|> return none

/-- Reads one or more items with `mark` between them. A mark without an item behind it is left. -/
def separated {α : Type} (mark : Char) (item : Reader α) : Reader (List α) := fun cs =>
  match item cs with
  | none => none
  | some (a, rest) =>
    match rest with
    | [] => some ([a], rest)
    | c :: tail =>
      if c = mark ∧ tail.length < cs.length then
        match separated mark item tail with
        | some (as, rest') => some (a :: as, rest')
        | none => some ([a], rest)
      else some ([a], rest)
termination_by cs => cs.length
decreasing_by simp_all

/-- Reads items up to the end of the text. -/
def allOf {α : Type} (item : Reader α) (cs : List Char) : Option (List α) :=
  if cs.isEmpty then some []
  else
    match item cs with
    | none => none
    | some (a, rest) =>
      if rest.length < cs.length then (allOf item rest).map (a :: ·) else none
termination_by cs.length

end Reader

/-! ## Blanks, line ends and comments -/

/-- Spaces and tabs. -/
def isInlineBlank (c : Char) : Bool := c = ' ' || c = '\t'

/-- Whether a character may stand in a comment or, other than quotes and backslashes, in a string:
no control code but the tab. -/
def isPlainChar (c : Char) : Bool := c = '\t' || (0x20 ≤ c.toNat && c.toNat ≠ 0x7F)

/-- Skips spaces and tabs. -/
def skipInline : Reader Unit := do let _ ← Reader.takeWhile isInlineBlank

/-- Reads a line feed, or a carriage return and a line feed. -/
def newline : Reader Unit := Reader.exactly ['\n'] <|> Reader.exactly ['\r', '\n']

/-- Reads a line end, or nothing at the end of the text. -/
def lineEnd : Reader Unit := do
  match ← Reader.peek? with
  | none => return ()
  | some _ => newline

/-- Reads a comment, without the line end behind it. -/
def comment : Reader Unit := do
  Reader.exactly ['#']
  let _ ← Reader.takeWhile isPlainChar

/-- Reads the blanks and the comment that may end a line, and the line end. -/
def restOfLine : Reader Unit := do
  skipInline
  let _ ← Reader.optional comment
  lineEnd

/-- Skips blanks, comments and line ends. -/
def skipAll (cs : List Char) : Option (Unit × List Char) :=
  match (do skipInline; let _ ← Reader.optional comment; newline : Reader Unit) cs with
  | some (_, rest) =>
    if rest.length < cs.length then skipAll rest else skipInline cs
  | none => skipInline cs
termination_by cs.length

/-- Skips blanks, comments and line ends. -/
def skipLines : Reader Unit := skipAll

end CallRefactor.Toml
