/-!
# Spans of a text

A span is a half-open range of byte offsets whose start does not come after its stop. Spans are
ordered by start and then by stop; items that carry a span are sorted by it so that items of equal
span keep their order.

Main statements: `overlaps_comm`, overlapping is symmetric; `le_total`, `le_trans` and
`le_antisymm`, the order is total, transitive and antisymmetric.
-/

namespace CallRefactor

/-- A half-open range of byte offsets. -/
@[ext] structure Span where
  /-- The offset of the first byte. -/
  start : Nat
  /-- The offset just past the last byte. -/
  stop : Nat
  /-- The range does not run backwards. -/
  start_le_stop : start ≤ stop := by omega
deriving DecidableEq

namespace Span

/-- The empty span at an offset. -/
def point (offset : Nat) : Span where
  start := offset
  stop := offset

/-- The number of bytes that a span covers. -/
def length (s : Span) : Nat := s.stop - s.start

/-- A span is empty when it covers no byte. -/
def IsEmpty (s : Span) : Prop := s.start = s.stop

instance (s : Span) : Decidable s.IsEmpty := inferInstanceAs (Decidable (_ = _))

/-- The least span that covers both `a` and `b`. -/
def hull (a b : Span) : Span where
  start := min a.start b.start
  stop := max a.stop b.stop
  start_le_stop := by have := a.start_le_stop; omega

/-- A span as messages show it. -/
protected def toString (s : Span) : String :=
  toString s.start ++ ".." ++ toString s.stop

instance : ToString Span := ⟨Span.toString⟩

/-! ## Two spans side by side -/

/-- Spans overlap when they cannot be edited independently of each other: they share a byte, or one
lies strictly inside the other, or both are the same empty span. Spans that only touch do not
overlap. -/
def Overlaps (a b : Span) : Prop :=
  (a.start < b.stop ∧ b.start < a.stop) ∨ (a.IsEmpty ∧ a = b)

instance (a b : Span) : Decidable (a.Overlaps b) := inferInstanceAs (Decidable (_ ∨ _))

theorem overlaps_comm {a b : Span} : a.Overlaps b ↔ b.Overlaps a := by
  constructor <;>
  · rintro (⟨h₁, h₂⟩ | ⟨h, rfl⟩)
    · exact .inl ⟨h₂, h₁⟩
    · exact .inr ⟨h, rfl⟩

/-- A span contains another that lies between its bounds. -/
def Contains (a b : Span) : Prop := a.start ≤ b.start ∧ b.stop ≤ a.stop

instance (a b : Span) : Decidable (a.Contains b) := inferInstanceAs (Decidable (_ ∧ _))

/-! ## Order -/

instance : LE Span where
  le a b := a.start < b.start ∨ (a.start = b.start ∧ a.stop ≤ b.stop)

theorem le_iff {a b : Span} :
    a ≤ b ↔ a.start < b.start ∨ (a.start = b.start ∧ a.stop ≤ b.stop) := Iff.rfl

instance (a b : Span) : Decidable (a ≤ b) := inferInstanceAs (Decidable (_ ∨ _))

/-- The place of `a` relative to `b` in the order by start and then by stop. -/
protected def compare (a b : Span) : Ordering :=
  (compare a.start b.start).then (compare a.stop b.stop)

theorem le_refl (a : Span) : a ≤ a := le_iff.2 (by omega)

theorem le_trans {a b c : Span} (h₁ : a ≤ b) (h₂ : b ≤ c) : a ≤ c := by
  rw [le_iff] at *; omega

theorem le_total (a b : Span) : a ≤ b ∨ b ≤ a := by
  simp only [le_iff]; omega

theorem le_antisymm {a b : Span} (h₁ : a ≤ b) (h₂ : b ≤ a) : a = b := by
  rw [le_iff] at h₁ h₂
  ext <;> omega

/-! ## Sorting by span -/

variable {α : Type}

/-- Puts `x` before the first item whose span is not before its own. -/
def insertSorted (span : α → Span) (x : α) : List α → List α
  | [] => [x]
  | y :: ys => if span x ≤ span y then x :: y :: ys else y :: insertSorted span x ys

/-- Sorts items by their span. Items of equal span keep their order. -/
def sortOn (span : α → Span) : List α → List α
  | [] => []
  | x :: xs => insertSorted span x (sortOn span xs)

example : sortOn id [⟨3, 4, by omega⟩, point 1] = [point 1, ⟨3, 4, by omega⟩] := by decide

end Span

end CallRefactor
