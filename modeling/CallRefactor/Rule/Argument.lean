import CallRefactor.Literal.Basic
import CallRefactor.Rule.Pattern
import CallRefactor.Text.Quoted

/-!
# Argument rules

An argument rule says what becomes of the arguments that it selects, by position or by type: how
their literals change, and whether they move behind the others. `ArgumentRule.resolve?` picks the
one rule for an argument. A rule for its position comes before every rule for its type, and among
rules of the same kind the first comes before the others.
-/

namespace CallRefactor

/-! ## Constraints -/

/-- Which arguments a rule is meant for. -/
inductive Constraint where
  /-- The argument at a position, counted from zero. -/
  | position (index : Nat)
  /-- The arguments of a type, given as the text of a pattern. -/
  | type (pattern : String)
deriving DecidableEq

/-- A constraint whose type pattern has been read. -/
inductive Selector where
  /-- The argument at a position, counted from zero. -/
  | position (index : Nat)
  /-- The arguments of a type. -/
  | type (pattern : TypePattern)
deriving DecidableEq

/-- Reads the type pattern of a constraint. -/
def Constraint.compile : Constraint → Except RuleError Selector
  | .position index => .ok (.position index)
  | .type pattern => (TypePattern.compile pattern).map .type

/-- The constraint that a selector was read from. -/
def Selector.constraint : Selector → Constraint
  | .position index => .position index
  | .type pattern => .type pattern.text

/-- A constraint as messages show it. -/
def Constraint.describe : Constraint → String
  | .position index => s!"Position({index})"
  | .type pattern => "Type(" ++ Text.quoted pattern ++ ")"

/-! ## Rules -/

/-- What becomes of the arguments that are selected. -/
structure ArgumentRule where
  /-- The arguments that the rule is for. -/
  selector : Selector
  /-- How their literals change, if they do. -/
  transform? : Option LiteralTransform := none
  /-- Whether they move behind the others. -/
  moveToLast : Bool := false

namespace ArgumentRule

/-- An argument rule as messages show it. -/
def describe (rule : ArgumentRule) : String :=
  "ArgumentRule \x7b constraint: " ++ rule.selector.constraint.describe
    ++ ", literal_transform: " ++ toString rule.transform?.isSome
    ++ ", move_to_last: " ++ toString rule.moveToLast ++ " \x7d"

/-- Whether a rule is for the argument at a position. -/
def isForPosition (index : Nat) (rule : ArgumentRule) : Bool :=
  match rule.selector with
  | .position own => own = index
  | .type _ => false

/-- Whether a rule is for arguments of a type. No type rule is for an argument of unknown type. -/
def isForType (type? : Option String) (rule : ArgumentRule) : Bool :=
  match rule.selector, type? with
  | .type pattern, some type => pattern.matchesType type.toList
  | _, _ => false

/-! ## Resolution -/

/-- Where the rule for an argument stands among the rules. -/
def resolveIndex? (rules : List ArgumentRule) (index : Nat) (type? : Option String) : Option Nat :=
  (rules.findIdx? (isForPosition index)).or (rules.findIdx? (isForType type?))

/-- The rule for the argument at a position and of a type. -/
def resolve? (rules : List ArgumentRule) (index : Nat) (type? : Option String) :
    Option ArgumentRule :=
  (rules.find? (isForPosition index)).or (rules.find? (isForType type?))

/-- The rule for an argument is the one that stands at the index for it. -/
theorem resolve?_eq_bind_resolveIndex? (rules : List ArgumentRule) (index : Nat)
    (type? : Option String) :
    resolve? rules index type? = (resolveIndex? rules index type?).bind (rules[·]?) := by
  simp only [resolve?, resolveIndex?, List.find?_eq_bind_findIdx?_getElem?]
  cases h : rules.findIdx? (isForPosition index) with
  | none => rfl
  | some i =>
    have hi : i < rules.length := (List.findIdx?_eq_some_iff_getElem.1 h).1
    simp [hi]

end ArgumentRule

end CallRefactor
