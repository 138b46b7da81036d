import CallRefactor.Proofs.Edit.Kept
import CallRefactor.Proofs.Fix.Call
import CallRefactor.Proofs.Syntax.Leaves

/-!
# The tokens of an argument

The literals of an argument are found at any depth and in any order, and sorting puts them into the
order of the text. Where they are tokens inside the argument, none of them empty and no two with a
byte in common, they stand one after the other. So do the edits of some of them, and composing these
edits breaks no promise about them. It does not matter whether the tokens fit the text: where one
does not, it is read as empty, and its edit still has the span of the token. All that is left to go
wrong is the argument itself, for which there is no room if it is longer than a text can be.

Main statements: `tokenized_iff`, what a host has to promise about the tokens, and
`literals_compose`, the literals are gathered whole and in order, and when their edits compose.
-/

namespace CallRefactor

/-- Spans overlap when they have a byte in common, if neither of them is empty. -/
theorem Span.overlaps_iff_exists_covers {a b : Span} (ha : ¬ a.IsEmpty) (hb : ¬ b.IsEmpty) :
    a.Overlaps b ↔ ∃ offset, a.Covers offset ∧ b.Covers offset := by
  constructor
  · rintro (⟨hab, hba⟩ | ⟨hempty, -⟩)
    · have hastop : a.start < a.stop := Nat.lt_of_le_of_ne a.start_le_stop ha
      have hbstop : b.start < b.stop := Nat.lt_of_le_of_ne b.start_le_stop hb
      exact ⟨max a.start b.start, ⟨by omega, by omega⟩, ⟨by omega, by omega⟩⟩
    · exact absurd hempty ha
  · rintro ⟨offset, ⟨ha₁, ha₂⟩, hb₁, hb₂⟩
    exact .inl ⟨by omega, by omega⟩

/-- Edits that lie inside a span and do not overlap fail to compose only for want of room. -/
theorem Edit.exists_compose_eq_error_iff_of_apart (text : String) {s : Span} {edits : List Edit}
    (hinside : ∀ edit ∈ edits, s.Contains edit.span)
    (hapart : edits.Pairwise fun a b => ¬ a.span.Overlaps b.span) :
    (∃ fault, compose text s edits = .error fault) ↔ edits ≠ [] ∧ capacity text < s.length := by
  by_cases hnil : edits = []
  · subst hnil
    exact ⟨nofun, fun h => absurd rfl h.1⟩
  rw [and_iff_right hnil]
  constructor
  · rintro ⟨fault, hfault⟩
    by_contra hroom
    rw [compose_eq_ok hnil hinside hapart (Nat.le_of_not_lt hroom)] at hfault
    cases hfault
  · exact fun hroom => ⟨_, compose_of_capacity_lt hnil hroom⟩

/-- An argument has no text exactly when a rule changes some literals of it and their edits do not
compose. -/
theorem Rule.exists_argumentText_eq_error_iff {rule : Rule} {text : String} {index : Nat}
    {argument : Expr} :
    (∃ fault, rule.argumentText text index argument = .error fault) ↔
      ∃ transform, rule.transform? index argument = some transform ∧
        ∃ fault, Edit.compose text argument.span (literalEdits text transform argument)
          = .error fault := by
  unfold argumentText
  cases rule.transform? index argument with
  | none => exact ⟨nofun, nofun⟩
  | some transform =>
    simp only [Option.some.injEq, exists_eq_left']
    exact exists_congr fun _ => map_eq_error_iff

namespace Expr

variable {e : Expr}

/-! ## Promises of the host -/

/-- The literals of an expression are tokens inside it. Whether they fit a text is not said. -/
structure Tokenized (e : Expr) : Prop where
  /-- Every literal stands inside the expression. -/
  inside : ∀ place literal, e.LiteralAt place literal → e.span.Contains literal.1
  /-- No literal is empty. -/
  nonempty : ∀ place literal, e.LiteralAt place literal → ¬ literal.1.IsEmpty
  /-- Different literals have no byte in common. -/
  disjoint : ∀ place other x y, e.LiteralAt place x → e.LiteralAt other y → place ≠ other →
    ∀ offset, ¬ (x.1.Covers offset ∧ y.1.Covers offset)

/-- What is promised about the places of literals can be read off the sorted literals. -/
theorem tokenized_iff : e.Tokenized ↔
    (∀ l ∈ e.literals, e.span.Contains l.1) ∧ (∀ l ∈ e.literals, ¬ l.1.IsEmpty) ∧
      e.literals.Pairwise fun a b => ¬ a.1.Overlaps b.1 := by
  have hperm : e.literals.Perm e.leaves := Span.sortOn_perm Prod.fst e.leaves
  have hsymm : ∀ {x y : Span × Literal}, ¬ x.1.Overlaps y.1 → ¬ y.1.Overlaps x.1 :=
    fun hn ho => hn (Span.overlaps_comm.1 ho)
  simp only [hperm.mem_iff, hperm.pairwise_iff hsymm, forall_mem_leaves_iff,
    pairwise_leaves_iff hsymm]
  constructor
  · intro h
    refine ⟨h.inside, h.nonempty, fun place other x y hx hy hne hover => ?_⟩
    obtain ⟨offset, hcovers⟩ := (Span.overlaps_iff_exists_covers (h.nonempty place x hx)
      (h.nonempty other y hy)).1 hover
    exact h.disjoint place other x y hx hy hne offset hcovers
  · rintro ⟨hinside, hnonempty, hapart⟩
    refine ⟨hinside, hnonempty, fun place other x y hx hy hne offset hcovers => ?_⟩
    exact hapart place other x y hx hy hne ((Span.overlaps_iff_exists_covers
      (hnonempty place x hx) (hnonempty other y hy)).2 ⟨offset, hcovers⟩)

instance (e : Expr) : Decidable e.Tokenized := decidable_of_iff _ tokenized_iff.symm

/-! ## Gathering and composing -/

/-- **The literals of an expression are gathered whole and in order, and their edits compose.**
There is a list of all places where a literal stands, none of them twice and in the order depth
first from left to right, and the literals of the expression are those at these places, stably
sorted by span. If they are tokens inside the expression, then under any transform their edits stay
inside it and do not overlap. So they compose, and a rule gives the expression a text as an
argument, unless there is some edit and no room for as much text as the expression takes up. -/
theorem literals_compose (e : Expr) :
    (∃ entries : List (List Nat × (Span × Literal)),
      (∀ place literal, (place, literal) ∈ entries ↔ e.LiteralAt place literal) ∧
      (entries.Pairwise fun x y => x.1 < y.1) ∧
      Span.IsStableSort Prod.fst (entries.map Prod.snd) e.literals) ∧
    (e.Tokenized → ∀ text : String,
      (∀ transform : LiteralTransform,
        (∀ edit ∈ Rule.literalEdits text transform e, e.span.Contains edit.span) ∧
        ((Rule.literalEdits text transform e).Pairwise fun a b => ¬ a.span.Overlaps b.span) ∧
        ((∃ fault, Edit.compose text e.span (Rule.literalEdits text transform e) = .error fault) ↔
          Rule.literalEdits text transform e ≠ [] ∧ Edit.capacity text < e.span.length)) ∧
      ∀ (rule : Rule) (index : Nat),
        (∃ fault, rule.argumentText text index e = .error fault) ↔
          ∃ transform, rule.transform? index e = some transform ∧
            Rule.literalEdits text transform e ≠ [] ∧ Edit.capacity text < e.span.length) := by
  refine ⟨⟨e.located, fun _ _ => mem_located_iff, pairwise_located e, ?_⟩, fun h text => ?_⟩
  · rw [map_snd_located]
    exact Span.isStableSort_sortOn Prod.fst e.leaves
  · obtain ⟨hinside, -, hapart⟩ := tokenized_iff.1 h
    have hedits : ∀ transform, ∀ edit ∈ Rule.literalEdits text transform e,
        e.span.Contains edit.span := fun _ _ => Rule.contains_of_mem_literalEdits hinside
    have hdisjoint : ∀ transform, (Rule.literalEdits text transform e).Pairwise
        fun a b => ¬ a.span.Overlaps b.span := fun transform =>
      (Rule.pairwise_literalEdits hapart transform).imp Span.Precedes.not_overlaps
    have hfaults := fun transform =>
      Edit.exists_compose_eq_error_iff_of_apart text (hedits transform) (hdisjoint transform)
    refine ⟨fun transform => ⟨hedits transform, hdisjoint transform, hfaults transform⟩,
      fun rule index => ?_⟩
    rw [Rule.exists_argumentText_eq_error_iff]
    simp only [hfaults]

/-- The expression `max(20, min(1, 3))`. Its parts stand in it from right to left. -/
def nestedMax : Expr :=
  .node ⟨0, 18, by decide⟩ (some "int") [
    .node ⟨8, 17, by decide⟩ (some "int") [
      .literal ⟨15, 16, by decide⟩ (some "int") (.int 3),
      .literal ⟨12, 13, by decide⟩ (some "int") (.int 1)],
    .literal ⟨4, 6, by decide⟩ (some "int") (.int 20)]

/-- The literals of the first argument of a call become `7`. -/
def firstToSeven : Rule where
  signature := Rule.rotateToU.signature
  arguments := [{ selector := .position 0, transform? := some fun _ => .int 7 }]

/-- The literals of `max(20, min(1, 3))` are found in the order of the text, and changing all of
them gives the argument a text. -/
theorem literals_compose_nestedMax :
    nestedMax.Tokenized ∧
      nestedMax.literals.map Prod.snd = [.int 20, .int 1, .int 3] ∧
      ∃ out, firstToSeven.argumentText "max(20, min(1, 3))" 0 nestedMax = .ok out := by
  have htokens : nestedMax.Tokenized := by decide +kernel
  obtain ⟨-, htext⟩ := (literals_compose nestedMax).2 htokens "max(20, min(1, 3))"
  refine ⟨htokens, by decide +kernel, ?_⟩
  by_contra hnone
  obtain ⟨_, _, _, hroom⟩ := (htext firstToSeven 0).1 (exists_eq_error_iff.2 hnone)
  exact absurd hroom (by decide +kernel)

example : firstToSeven.argumentText "max(20, min(1, 3))" 0 nestedMax
    = .ok "max(7, min(7, 7))" := by decide +kernel

/-- The argument of `f(1)` with a stop far behind the text. Its literal is where it should be. -/
def endlessArgument : Expr :=
  .node ⟨2, 0xffffffffffffffff, by decide⟩ (some "int")
    [.literal ⟨2, 3, Nat.le_succ 2⟩ (some "int") (.int 1)]

/-- There is no room for an argument that is longer than a text can be. -/
theorem literals_compose_endless :
    endlessArgument.Tokenized ∧
      firstToSeven.argumentText "f(1)" 0 endlessArgument = .error .capacity := by
  decide +kernel

end Expr

end CallRefactor
