import CallRefactor.Toml.Value

/-!
# TOML documents

A document is a sequence of lines: headers, which say what table the lines below them belong to,
assignments, and lines that are blank or hold a comment alone. `parse?` gives the table that a
document stands for, or `none` if it is malformed or defines something twice.
-/

namespace CallRefactor.Toml

/-- A line of a document. -/
inductive Line where
  /-- Nothing but blanks and a comment. -/
  | blank
  /-- The header of a table. -/
  | header (path : List String)
  /-- The header of one of several tables. -/
  | next (path : List String)
  /-- A key and its value. -/
  | assignment (path : List String) (value : Value)

/-- Reads a header. -/
def header : Reader Line :=
  (do
    Reader.exactly ['[', '[']
    let path ← key
    Reader.exactly [']', ']']
    return .next path)
  <|> do
    Reader.exactly ['[']
    let path ← key
    Reader.exactly [']']
    return .header path

/-- Reads a line together with its end. -/
def line : Reader Line := do
  skipInline
  let line ← header <|> (do let (path, value) ← assignment value; return .assignment path value)
    <|> return .blank
  restOfLine
  return line

/-- A document up to some line: the table that the lines below belong to, and all entries. -/
structure Progress where
  /-- The header of the current table. -/
  current : List String := []
  /-- The entries of the whole document. -/
  entries : Entries := []

/-- Takes in one more line. -/
def Progress.add (progress : Progress) : Line → Option Progress
  | .blank => some progress
  | .header path => (progress.entries.openTable path).map fun entries => ⟨path, entries⟩
  | .next path => (progress.entries.openNext path).map fun entries => ⟨path, entries⟩
  | .assignment path value =>
    (Entries.change .implied (Entries.assignNew path value) progress.current
      progress.entries).map fun entries => ⟨progress.current, entries⟩

/-- A text without the mark that may stand at the beginning of a document. -/
def dropMark : List Char → List Char
  | '\ufeff' :: cs => cs
  | cs => cs

/-- The table that a document stands for. -/
def parse? (text : String) : Option Value := do
  let lines ← Reader.allOf line (dropMark text.toList)
  let progress ← lines.foldlM Progress.add {}
  return .table (entriesToValue progress.entries)

end CallRefactor.Toml
