import CallRefactor.Span
import Mathlib.Data.List.Sort

/-!
# Sorting by span is insertion sort

Sorting by span is insertion sort for the order that items take over from their spans, which is
total and transitive but holds both ways between items of one span. What is known of insertion sort
is taken over from there.

Main statements: `sortOn_eq`; `sortOn_perm` and `pairwise_sortOn`, sorting keeps the items and puts
them in order; and `sortOn_sublist`, some of the items are sorted alone as they are among the
others.
-/

namespace CallRefactor.Span

variable {α : Type} {span : α → Span} {xs ys : List α}

instance : IsTrans α fun x y => span x ≤ span y := ⟨fun _ _ _ => le_trans⟩

instance : Std.Total fun x y : α => span x ≤ span y := ⟨fun _ _ => le_total _ _⟩

theorem insertSorted_eq (x : α) (xs : List α) :
    insertSorted span x xs = xs.orderedInsert (fun x y => span x ≤ span y) x := by
  induction xs with
  | nil => rfl
  | cons y ys ih => rw [insertSorted, ih, List.orderedInsert_cons]

theorem sortOn_eq (span : α → Span) (xs : List α) :
    sortOn span xs = xs.insertionSort fun x y => span x ≤ span y := by
  induction xs with
  | nil => rfl
  | cons x xs ih => rw [sortOn, insertSorted_eq, ih, List.insertionSort_cons]

/-- Sorting loses and adds nothing. -/
theorem sortOn_perm (span : α → Span) (xs : List α) : (sortOn span xs).Perm xs := by
  rw [sortOn_eq]
  exact List.perm_insertionSort _ xs

/-- Sorting puts the items into the order of their spans. -/
theorem pairwise_sortOn (span : α → Span) (xs : List α) :
    (sortOn span xs).Pairwise fun x y => span x ≤ span y := by
  rw [sortOn_eq]
  exact List.pairwise_insertionSort _ xs

/-- Some of the items stand in the sorted list as they do when they are sorted alone. -/
theorem sortOn_sublist (h : xs.Sublist ys) : (sortOn span xs).Sublist (sortOn span ys) := by
  induction h with
  | slnil => exact List.Sublist.refl _
  | cons y _ ih =>
    rw [sortOn, insertSorted_eq]
    exact ih.trans (List.sublist_orderedInsert y _)
  | cons_cons y _ ih =>
    rw [sortOn, sortOn, insertSorted_eq, insertSorted_eq]
    exact ih.orderedInsert_sublist y (pairwise_sortOn span _)

end CallRefactor.Span
