import CallRefactor.Toml.Moment
import CallRefactor.Toml.Table

/-!
# Values of a TOML document

Arrays may run over several lines and end in a comma. Inline tables stand on one line and have no
comma at their end. Arrays and inline tables may be nested up to 79 levels deep, and a key may have
up to 79 parts.
-/

namespace CallRefactor.Toml

/-! ## Keys -/

/-- Whether a character may stand in a key without quotes. -/
def isKeyChar (c : Char) : Bool := c.isAlphanum || c = '_' || c = '-'

/-- Reads a key without dots. -/
def simpleKey : Reader String := do
  return String.ofList (← basicString <|> literalString <|> Reader.takeSome isKeyChar)

/-- How many levels deep tables and arrays may be nested. -/
def depthLimit : Nat := 79

/-- Reads a key, which is a path of simple keys. -/
def key : Reader (List String) := do
  let path ← Reader.separated '.' do
    skipInline
    let name ← simpleKey
    skipInline
    return name
  if path.length ≤ depthLimit then return path else failure

/-! ## Values -/

/-- Reads a value that holds no other values. -/
def scalar : Reader Value :=
  (do return .text (← string))
    <|> (do Reader.exactly "true".toList; return .boolean true)
    <|> (do Reader.exactly "false".toList; return .boolean false)
    <|> (do return .moment (← moment))
    <|> (do return .real (← real))
    <|> (do return .integer (← integer))

/-- Reads an array. -/
def array (value : Reader Value) : Reader Value := do
  Reader.exactly ['[']
  let items ← Reader.optional <| Reader.separated ',' do
    skipLines
    let item ← value
    skipLines
    return item
  if items.isSome then
    let _ ← Reader.optional (Reader.exactly [','])
  skipLines
  Reader.exactly [']']
  return .list (items.getD [])

/-- Reads a key, an equals sign and a value. -/
def assignment (value : Reader Value) : Reader (List String × Value) := do
  let path ← key
  Reader.exactly ['=']
  skipInline
  return (path, ← value)

/-- Reads an inline table. -/
def inlineTable (value : Reader Value) : Reader Value := do
  Reader.exactly ['\x7b']
  let pairs ← Reader.optional <| Reader.separated ',' do
    let pair ← assignment value
    skipInline
    return pair
  skipInline
  Reader.exactly ['\x7d']
  let assign (entries : Entries) (pair : List String × Value) : Option Entries :=
    Entries.assignNew pair.1 pair.2 entries
  match (pairs.getD []).foldlM assign [] with
  | some entries => return .table (entriesToValue entries)
  | none => failure

/-- Reads a value in which arrays and inline tables are nested up to `depth` levels deep. -/
def valueWithin : Nat → Reader Value
  | 0 => scalar
  | depth + 1 => do
    match ← Reader.peek? with
    | some '[' => array (valueWithin depth)
    | some '\x7b' => inlineTable (valueWithin depth)
    | _ => scalar

/-- Reads a value. -/
def value : Reader Value := valueWithin depthLimit

end CallRefactor.Toml
