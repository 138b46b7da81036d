import CallRefactor.Span
import Mathlib.Tactic.WLOG

/-!
# Sorting items that come in groups

Sorting by span keeps the order of items of equal span. So when the items come in groups, and no
item of one group has the span of an item of another one, it does not matter to the sorted list in
which order the groups come. Inside a group items may have equal spans, and their order does matter.

Main statement: `sortOn_flatMap_of_perm`.
-/

namespace CallRefactor.Span

variable {α β : Type} {span : α → Span} {x y : α} {xs ys zs : List α}

/-- Two items of different spans can be inserted in either order. -/
theorem insertSorted_comm (h : span x ≠ span y) (zs : List α) :
    insertSorted span x (insertSorted span y zs)
      = insertSorted span y (insertSorted span x zs) := by
  wlog hle : span x ≤ span y generalizing x y
  · exact (this h.symm ((le_total (span x) (span y)).resolve_left hle)).symm
  have hn : ¬ span y ≤ span x := fun hyx => h (le_antisymm hle hyx)
  induction zs with
  | nil => simp only [insertSorted, if_pos hle, if_neg hn]
  | cons z zs ih =>
    by_cases hyz : span y ≤ span z
    · have hxz : span x ≤ span z := le_trans hle hyz
      simp only [insertSorted, if_pos hyz, if_pos hxz, if_pos hle, if_neg hn]
    · by_cases hxz : span x ≤ span z
      · simp only [insertSorted, if_neg hyz, if_pos hxz, if_neg hn]
      · simp only [insertSorted, if_neg hyz, if_neg hxz, ih]

/-- An item can be inserted from behind items of other spans. -/
theorem insertSorted_sortOn_append (h : ∀ y ∈ ys, span x ≠ span y) (zs : List α) :
    insertSorted span x (sortOn span (ys ++ zs)) = sortOn span (ys ++ x :: zs) := by
  induction ys with
  | nil => rfl
  | cons y ys ih =>
    obtain ⟨hy, hys⟩ := List.forall_mem_cons.1 h
    show insertSorted span x (insertSorted span y (sortOn span (ys ++ zs))) = _
    rw [insertSorted_comm hy, ih hys]
    rfl

/-- Two groups without a common span can change places. -/
theorem sortOn_append_append_comm (h : ∀ x ∈ xs, ∀ y ∈ ys, span x ≠ span y) (zs : List α) :
    sortOn span (xs ++ (ys ++ zs)) = sortOn span (ys ++ (xs ++ zs)) := by
  induction xs with
  | nil => rfl
  | cons x xs ih =>
    obtain ⟨hx, hxs⟩ := List.forall_mem_cons.1 h
    show insertSorted span x (sortOn span (xs ++ (ys ++ zs))) = _
    rw [ih hxs, insertSorted_sortOn_append hx]
    rfl

theorem sortOn_append_congr (xs : List α) (h : sortOn span ys = sortOn span zs) :
    sortOn span (xs ++ ys) = sortOn span (xs ++ zs) := by
  induction xs with
  | nil => exact h
  | cons x xs ih => exact congrArg (insertSorted span x) ih

/-- Groups without common spans can come in any order. -/
theorem sortOn_flatMap_of_perm {f : β → List α} {groups other : List β} (hp : groups.Perm other)
    (h : groups.Pairwise fun a b => ∀ x ∈ f a, ∀ y ∈ f b, span x ≠ span y) :
    sortOn span (groups.flatMap f) = sortOn span (other.flatMap f) := by
  induction hp with
  | nil => rfl
  | cons a _ ih => exact sortOn_append_congr (f a) (ih (List.pairwise_cons.1 h).2)
  | swap a b rest =>
    have hab := (List.pairwise_cons.1 h).1 a List.mem_cons_self
    exact sortOn_append_append_comm hab (rest.flatMap f)
  | trans hp₁ _ ih₁ ih₂ =>
    have hsymm : ∀ {a b}, (∀ x ∈ f a, ∀ y ∈ f b, span x ≠ span y) →
        ∀ x ∈ f b, ∀ y ∈ f a, span x ≠ span y := fun h x hx y hy => (h y hy x hx).symm
    rw [ih₁ h, ih₂ (h.perm hp₁ hsymm)]

end CallRefactor.Span
