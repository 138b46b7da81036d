import CallRefactor.Config.Decode
import CallRefactor.Edit.Apply
import CallRefactor.Fix.File
import CallRefactor.Proofs.Text.Cut
import CallRefactor.Proofs.Text.Split
import CallRefactor.Proofs.Text.Trim
import CallRefactor.Proofs.Text.Occurrence
import CallRefactor.Proofs.Success
import CallRefactor.Proofs.Pattern.Regex
import CallRefactor.Proofs.Pattern.Gapped
import CallRefactor.Proofs.Pattern.Glob
import CallRefactor.Proofs.Pattern.Outline
import CallRefactor.Proofs.Pattern.Path
import CallRefactor.Proofs.Pattern.Arguments
import CallRefactor.Proofs.Pattern.Arity
import CallRefactor.Proofs.Pattern.Types
import CallRefactor.Proofs.Pattern.TypeGrammar
import CallRefactor.Proofs.Pattern.Grammar
import CallRefactor.Proofs.Pattern.Names
import CallRefactor.Proofs.Rule.Resolution
import CallRefactor.Proofs.Rule.Build
import CallRefactor.Proofs.Rule.Moments
import CallRefactor.Proofs.Rule.Steps
import CallRefactor.Proofs.Config.Build
import CallRefactor.Proofs.Literal.Numeral
import CallRefactor.Proofs.Literal.Token
import CallRefactor.Proofs.Literal.Integer
import CallRefactor.Proofs.Literal.Escape
import CallRefactor.Proofs.Literal.StringToken
import CallRefactor.Proofs.Literal.StringEdit
import CallRefactor.Proofs.Span.Sort
import CallRefactor.Proofs.Span.Precedence
import CallRefactor.Proofs.Span.Stable
import CallRefactor.Proofs.Edit.Applicable
import CallRefactor.Proofs.Edit.Refusal
import CallRefactor.Proofs.Edit.FixList
import CallRefactor.Proofs.Edit.Splice
import CallRefactor.Proofs.Edit.Compose
import CallRefactor.Proofs.Edit.Idle
import CallRefactor.Proofs.Edit.NormalForm
import CallRefactor.Proofs.Edit.Backward
import CallRefactor.Proofs.Edit.Order
import CallRefactor.Proofs.Edit.Kept
import CallRefactor.Proofs.Syntax.WellFormed
import CallRefactor.Proofs.Syntax.Leaves
import CallRefactor.Proofs.Fix.Phases
import CallRefactor.Proofs.Fix.Call
import CallRefactor.Proofs.Fix.Tokens
import CallRefactor.Proofs.Fix.Verdict
import CallRefactor.Proofs.Fix.Nested
import CallRefactor.Proofs.Fix.Insertions
import CallRefactor.Proofs.Fix.Arrange
import CallRefactor.Proofs.Fix.Reorder
import CallRefactor.Proofs.Fix.Visits
import CallRefactor.Proofs.Fix.Independence
import CallRefactor.Proofs.Fix.Permutation
