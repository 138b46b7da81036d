import CallRefactor.Proofs.Span.Sort

/-!
# Stable sorting by span

A list is sorted stably by span when it has the same items in the order of their spans, and the
items of any one span stand in it in the order in which they came. That leaves no choice: the items
of each span are known in order, and which spans come first is known as well.

Main statements: `isStableSort_iff`, and `isStableSort_append`, the parts of a list may be sorted
before the whole.
-/

namespace CallRefactor.Span

variable {α : Type} {span : α → Span} {xs ys : List α}

/-- `ys` is `xs` sorted by span, with items of equal span in the order in which they came. -/
structure IsStableSort (span : α → Span) (xs ys : List α) : Prop where
  /-- No item is lost, added or changed. -/
  perm : ys.Perm xs
  /-- The items stand in the order of their spans. -/
  ordered : ys.Pairwise fun x y => span x ≤ span y
  /-- Items of one span keep their order. -/
  stable : ∀ s, ys.filter (fun x => span x = s) = xs.filter fun x => span x = s

theorem filter_insertSorted (x : α) (xs : List α) (s : Span) :
    (insertSorted span x xs).filter (fun y => span y = s)
      = (x :: xs).filter fun y => span y = s := by
  induction xs with
  | nil => rfl
  | cons y ys ih =>
    rw [insertSorted]
    split
    · rfl
    · next hle =>
      -- `x` only moves behind items of other spans, of which the filter keeps none or not `x`
      have hne : span x ≠ span y := by
        intro heq
        exact hle (heq ▸ le_refl (span x))
      rw [List.filter_cons, ih]
      by_cases hx : span x = s
      · have hy : ¬ span y = s := by
          intro hy
          exact hne (hx.trans hy.symm)
        simp [hx, hy]
      · simp [List.filter_cons, hx]

theorem filter_sortOn (xs : List α) (s : Span) :
    (sortOn span xs).filter (fun x => span x = s) = xs.filter fun x => span x = s := by
  induction xs with
  | nil => rfl
  | cons x xs ih =>
    rw [sortOn, filter_insertSorted, List.filter_cons, List.filter_cons, ih]

theorem isStableSort_sortOn (span : α → Span) (xs : List α) :
    IsStableSort span xs (sortOn span xs) where
  perm := sortOn_perm span xs
  ordered := pairwise_sortOn span xs
  stable := filter_sortOn xs

theorem le_of_mem_cons {x y : α} (h : (x :: xs).Pairwise fun x y => span x ≤ span y)
    (hy : y ∈ x :: xs) : span x ≤ span y := by
  rcases List.mem_cons.1 hy with rfl | hy
  · exact le_refl _
  · exact (List.pairwise_cons.1 h).1 y hy

theorem mem_iff_of_filter_eq
    (h : ∀ s, xs.filter (fun x => span x = s) = ys.filter fun x => span x = s) (z : α) :
    z ∈ xs ↔ z ∈ ys := by
  have hz : z ∈ xs.filter (fun x => span x = span z) ↔ z ∈ ys.filter fun x => span x = span z := by
    rw [h (span z)]
  simpa using hz

/-- Sorted lists with the same items of every span, in the same order, are the same. -/
theorem eq_of_filter_eq (hx : xs.Pairwise fun x y => span x ≤ span y)
    (hy : ys.Pairwise fun x y => span x ≤ span y)
    (h : ∀ s, xs.filter (fun x => span x = s) = ys.filter fun x => span x = s) : xs = ys := by
  induction xs generalizing ys with
  | nil =>
    refine (List.eq_nil_iff_forall_not_mem.2 ?_).symm
    intro z hz
    simpa using (mem_iff_of_filter_eq h z).2 hz
  | cons x xs ih =>
    cases ys with
    | nil => simpa using (mem_iff_of_filter_eq h x).1 List.mem_cons_self
    | cons y ys =>
      -- each head comes first in its own list and stands somewhere in the other one
      have hspan : span x = span y :=
        le_antisymm (le_of_mem_cons hx ((mem_iff_of_filter_eq h y).2 List.mem_cons_self))
          (le_of_mem_cons hy ((mem_iff_of_filter_eq h x).1 List.mem_cons_self))
      have hhead := h (span y)
      simp only [List.filter_cons, hspan, decide_true, if_true, List.cons.injEq] at hhead
      obtain ⟨rfl, _⟩ := hhead
      rw [ih (List.pairwise_cons.1 hx).2 (List.pairwise_cons.1 hy).2]
      intro s
      have hs := h s
      by_cases heq : span x = s
      · simpa [heq] using hs
      · simpa [List.filter_cons, heq] using hs

/-- Sorting finds the one stable arrangement. -/
theorem isStableSort_iff : IsStableSort span xs ys ↔ ys = sortOn span xs := by
  constructor
  · intro h
    refine eq_of_filter_eq h.ordered (pairwise_sortOn span xs) ?_
    intro s
    rw [h.stable, filter_sortOn]
  · rintro rfl
    exact isStableSort_sortOn span xs

/-- Sorting does not see whether the parts of a list have been sorted before. -/
theorem isStableSort_append (span : α → Span) (xs ys zs : List α) :
    IsStableSort span (sortOn span xs ++ sortOn span ys ++ sortOn span zs)
      (sortOn span (xs ++ ys ++ zs)) where
  perm := (sortOn_perm span _).trans
    (((sortOn_perm span xs).append (sortOn_perm span ys)).append (sortOn_perm span zs)).symm
  ordered := pairwise_sortOn span _
  stable s := by simp only [filter_sortOn, List.filter_append]

end CallRefactor.Span
