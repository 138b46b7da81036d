import CallRefactor.Pattern.Error
import CallRefactor.Pattern.Glob
import CallRefactor.Text.Split
import CallRefactor.Unicode.Blank

/-!
# Patterns of qualified types

A qualified type is a path of segments joined by dots, and a pattern of one is a path of globs. A
star alone stands for one segment, a star in a word for any run of characters of it. Two dots in
place of one stand for any number of packages between, and a star and two dots at the front for any
number of packages before. Pairs of brackets at the end are the dimensions of an array type.

`parse` reads a path pattern, and `regex` is the expression by which it is compared with a type.
-/

namespace CallRefactor.Pattern

/-- A pattern over the segments of a qualified type. A gap stands for packages. -/
abbrev Path := List (Item Glob)

namespace Path

/-! ## Reading -/

/-- The dimensions at the end of a type, read backwards, and what comes before them. Blanks before
a pair of brackets are skipped. -/
def dimensions : List Char → Nat × List Char
  | [] => (0, [])
  | [c] => if Unicode.isBlank c then (0, []) else (0, [c])
  | c :: d :: rest =>
    if Unicode.isBlank c then dimensions (d :: rest)
    else if c = ']' ∧ d = '[' then ((dimensions rest).1 + 1, (dimensions rest).2)
    else (0, c :: d :: rest)

/-- Reads one segment of the pattern `whole`. -/
def segment (whole : String) (cs : List Char) : Except PatternError Glob :=
  if cs.isEmpty then .error (.emptySegment whole)
  else if ¬ cs.all isPatternChar then .error (.invalidCharacter whole)
  else if cs = ['*'] then .ok Glob.anyRun
  else .ok (Glob.ofStars cs)

/-- Reads segments joined by single dots. -/
def stretch (whole : String) (cs : List Char) : Except PatternError (List Glob) :=
  (Text.splitOn '.' cs).mapM (segment whole)

/-- Reads segments joined by single and double dots, with a gap for every double dot. -/
def segments (whole : String) (cs : List Char) : Except PatternError Path :=
  ((Text.splitOnPair '.' cs).mapM (stretch whole)).map fun stretches =>
    [Item.gap].intercalate (stretches.map (·.map Item.one))

/-- Appends pairs of brackets to the last glob of a path. -/
def withDimensions (count : Nat) : Path → Path
  | [] => []
  | [.one glob] =>
    [.one (glob ++ (List.replicate count (Glob.ofStars ['[', ']'])).flatten)]
  | item :: rest => item :: withDimensions count rest

/-- A type pattern without its dimensions, and how many it has. -/
def splitDimensions (cs : List Char) : Nat × List Char :=
  ((dimensions cs.reverse).1, (dimensions cs.reverse).2.reverse)

/-- Reads a path pattern, which has no blanks around it. -/
def parse (cs : List Char) : Except PatternError Path :=
  let whole := String.ofList cs
  let (count, base) := splitDimensions cs
  if base.isEmpty then .error (.emptyType whole)
  else
    match ['*', '.', '.'].isPrefixOf? base with
    | some rest => (segments whole rest).map fun path => .gap :: withDimensions count path
    | none => (segments whole base).map (withDimensions count)

/-! ## Matching -/

/-- What a star of a segment may stand for: neither dots nor commas. -/
def segmentChars : CharClass := .noneOf ['.', ',']

/-- The dot between two segments. -/
def dot : Regex := .char (.exactly '.')

/-- Any number of packages with a dot behind each of them. -/
def anyPackages : Regex := .star (.plus (.char segmentChars) ++ dot)

/-- The expression of a path. A dot stands behind every segment but the last one. -/
def regex : Path → Regex
  | [] => .empty
  | [.one glob] => glob.regex segmentChars
  | .one glob :: rest => glob.regex segmentChars ++ (dot ++ regex rest)
  | .gap :: rest => anyPackages ++ regex rest

/-- Whether a path pattern fits a qualified type. -/
def matchesPath (path : Path) (type : List Char) : Bool :=
  path.regex.accepts type

end Path

end CallRefactor.Pattern
