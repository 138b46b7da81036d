import CallRefactor.Syntax.Expr
import Mathlib.Data.List.Lex
import Mathlib.Data.List.Pairwise

/-!
# Where the literals of an expression stand

A place in an expression is a list of positions: the first one leads to a part of the expression,
the next one to a part of that part, and so on. Places are compared at the first position in which
they differ, so their order is the order in which a walk meets them that goes into depth first and
through the parts from left to right.

`Expr.located` is such a walk. It meets every literal, each at its own place, and without the places
it is what `Expr.leaves` collects.

Main statements: `mem_located_iff`, a literal is met at a place exactly when it stands there, and
`pairwise_located`, the places are met in order and none of them twice.
-/

namespace CallRefactor.Expr

variable {e : Expr} {place : List Nat} {literal : Span × Literal}

/-- A literal stands at a place of an expression. -/
inductive LiteralAt : Expr → List Nat → Span × Literal → Prop where
  /-- A literal stands at the empty place of itself. -/
  | here (span : Span) (type? : Option String) (value : Literal) :
    LiteralAt (.literal span type? value) [] (span, value)
  /-- What stands in a part stands in the expression behind the position of the part. -/
  | part {span : Span} {type? : Option String} {parts : List Expr} {position : Nat} {part : Expr}
    {place : List Nat} {literal : Span × Literal} (hpart : parts[position]? = some part)
    (h : LiteralAt part place literal) :
    LiteralAt (.node span type? parts) (position :: place) literal

mutual

/-- The literals of an expression with their places, depth first and parts from left to right. -/
def located : Expr → List (List Nat × (Span × Literal))
  | .literal span _ value => [([], (span, value))]
  | .node _ _ parts => locatedFrom 0 parts

/-- The literals of expressions that are parts from a position on, with their places behind it. -/
def locatedFrom (position : Nat) : List Expr → List (List Nat × (Span × Literal))
  | [] => []
  | part :: parts =>
    (located part).map (fun (place, literal) => (position :: place, literal))
      ++ locatedFrom (position + 1) parts

end

/-! ## No literal is missed -/

theorem mem_locatedFrom_iff {position : Nat} {parts : List Expr} :
    (place, literal) ∈ locatedFrom position parts ↔
      ∃ i part rest, parts[i]? = some part ∧ place = (position + i) :: rest ∧
        (rest, literal) ∈ part.located := by
  induction parts generalizing position with
  | nil => simp [locatedFrom]
  | cons part parts ih =>
    rw [locatedFrom, List.mem_append, ih]
    constructor
    · rintro (h | ⟨i, other, rest, hother, rfl, hrest⟩)
      · obtain ⟨⟨rest, _⟩, hrest, heq⟩ := List.mem_map.1 h
        obtain ⟨rfl, rfl⟩ := Prod.mk.inj heq
        exact ⟨0, part, rest, rfl, rfl, hrest⟩
      · exact ⟨i + 1, other, rest, hother, by rw [Nat.add_right_comm, Nat.add_assoc], hrest⟩
    · rintro ⟨i, other, rest, hother, rfl, hrest⟩
      cases i with
      | zero =>
        obtain rfl : part = other := Option.some.inj hother
        exact .inl (List.mem_map.2 ⟨(rest, literal), hrest, rfl⟩)
      | succ i =>
        exact .inr ⟨i, other, rest, hother, by rw [Nat.add_right_comm, Nat.add_assoc], hrest⟩

/-- A literal is met at a place exactly when it stands there. -/
theorem mem_located_iff : (place, literal) ∈ e.located ↔ e.LiteralAt place literal := by
  constructor
  · -- the place says which part the walk goes into, so the induction is on it
    intro h
    induction place generalizing e with
    | nil =>
      cases e with
      | literal span type? value =>
        obtain rfl : literal = (span, value) := by simpa [located] using h
        exact .here span type? value
      | node span type? parts => simp [located, mem_locatedFrom_iff] at h
    | cons position place ih =>
      cases e with
      | literal span type? value => simp [located] at h
      | node span type? parts =>
        rw [located, mem_locatedFrom_iff] at h
        obtain ⟨i, part, rest, hpart, hplace, hrest⟩ := h
        obtain ⟨rfl, rfl⟩ := List.cons.inj hplace
        exact .part ((Nat.zero_add i).symm ▸ hpart) (ih hrest)
  · intro h
    induction h with
    | here span type? value => simp [located]
    | part hpart _ ih =>
      rw [located, mem_locatedFrom_iff]
      exact ⟨_, _, _, hpart, by rw [Nat.zero_add], ih⟩

/-! ## No literal is met twice -/

mutual

/-- The places are met in order, so none of them is met twice. -/
theorem pairwise_located : ∀ e : Expr, e.located.Pairwise fun x y => x.1 < y.1
  | .literal _ _ _ => List.pairwise_singleton _ _
  | .node _ _ parts => pairwise_locatedFrom 0 parts

theorem pairwise_locatedFrom (position : Nat) :
    ∀ parts : List Expr, (locatedFrom position parts).Pairwise fun x y => x.1 < y.1
  | [] => .nil
  | part :: parts => by
    rw [locatedFrom]
    refine List.pairwise_append.2 ⟨List.pairwise_map.2 ?_, pairwise_locatedFrom _ parts, ?_⟩
    · exact (pairwise_located part).imp fun h => List.cons_lt_cons_iff.2 (.inr ⟨rfl, h⟩)
    · -- what a later part holds stands behind a greater position
      rintro x hx ⟨place, literal⟩ hy
      obtain ⟨_, -, rfl⟩ := List.mem_map.1 hx
      obtain ⟨i, _, rest, -, rfl, -⟩ := mem_locatedFrom_iff.1 hy
      exact List.cons_lt_cons_iff.2 (.inl (by omega))

end

/-! ## Without the places -/

mutual

/-- Without the places, the walk is what the expression collects. -/
theorem map_snd_located : ∀ e : Expr, e.located.map Prod.snd = e.leaves
  | .literal _ _ _ => rfl
  | .node _ _ parts => map_snd_locatedFrom 0 parts

theorem map_snd_locatedFrom (position : Nat) :
    ∀ parts : List Expr, (locatedFrom position parts).map Prod.snd = leavesOfAll parts
  | [] => rfl
  | part :: parts => by
    rw [locatedFrom, List.map_append, List.map_map, map_snd_locatedFrom _ parts, leavesOfAll,
      ← map_snd_located part]
    rfl

end

/-- What holds of the literals holds wherever one of them stands. -/
theorem forall_mem_leaves_iff {p : Span × Literal → Prop} :
    (∀ literal ∈ e.leaves, p literal) ↔ ∀ place literal, e.LiteralAt place literal → p literal := by
  simp only [← map_snd_located, List.forall_mem_map, Prod.forall, mem_located_iff]

/-- What holds of every two literals holds wherever two of them stand. -/
theorem pairwise_leaves_iff {r : Span × Literal → Span × Literal → Prop}
    (hsymm : ∀ {x y}, r x y → r y x) :
    e.leaves.Pairwise r ↔ ∀ place other x y, e.LiteralAt place x → e.LiteralAt other y →
      place ≠ other → r x y := by
  rw [← map_snd_located, List.pairwise_map]
  constructor
  · intro h place other x y hx hy hne
    have : Std.Symm fun x y : List Nat × (Span × Literal) => r x.2 y.2 := ⟨fun _ _ => hsymm⟩
    exact h.forall (mem_located_iff.2 hx) (mem_located_iff.2 hy)
      fun heq => hne (Prod.mk.inj heq).1
  · intro h
    refine (pairwise_located e).imp_of_mem fun hx hy hlt => ?_
    exact h _ _ _ _ (mem_located_iff.1 hx) (mem_located_iff.1 hy) (ne_of_lt hlt)

end CallRefactor.Expr
