import CallRefactor.Literal.Basic
import CallRefactor.Span

/-!
# Expressions

Of an expression only its span, its type and the literals inside it matter here, so an expression
is a literal or a node whose parts are expressions. The parts need not stand in the order of the
text; `Expr.literals` puts the literals into that order.
-/

namespace CallRefactor

/-- An expression with its span and, if it is known, its qualified type. -/
inductive Expr where
  /-- A literal token. -/
  | literal (span : Span) (type? : Option String) (value : Literal)
  /-- Any other expression, with the expressions inside it. -/
  | node (span : Span) (type? : Option String) (parts : List Expr)

namespace Expr

/-- The span of an expression. -/
def span : Expr → Span
  | .literal span _ _ => span
  | .node span _ _ => span

/-- The qualified type of an expression, if it is known. -/
def type? : Expr → Option String
  | .literal _ type? _ => type?
  | .node _ type? _ => type?

mutual

/-- The literals of an expression, depth first and parts from left to right. -/
def leaves : Expr → List (Span × Literal)
  | .literal span _ value => [(span, value)]
  | .node _ _ parts => leavesOfAll parts

/-- The literals of expressions, one expression after the other. -/
def leavesOfAll : List Expr → List (Span × Literal)
  | [] => []
  | part :: parts => leaves part ++ leavesOfAll parts

end

/-- The literals of an expression, in the order of their spans. -/
def literals (e : Expr) : List (Span × Literal) := Span.sortOn Prod.fst e.leaves

end Expr

end CallRefactor
