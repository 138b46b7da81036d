import CallRefactor.Edit.Apply
import CallRefactor.Proofs.Edit.Applicable

/-!
# Edits in another order

What a list of edits does to a text does not depend on the order of the list. Edits of equal span
keep their order when they are sorted, so two orders of one list can be sorted differently. But the
sorted spans are the same in both, and an error says something about spans only. So both lists are
refused for the same reason, or both are accepted. In a list that is accepted no two edits have the
same span, since every span overlaps itself, and there is one way to sort it.

Main statements: `map_span_sort_of_perm`, `fault?_congr` and `normalize_of_perm`.
-/

namespace CallRefactor.Edit

variable {text : List Char} {edits other xs ys : List Edit}

/-! ## Sorted spans -/

/-- The sorted spans are the same in every order of the list. -/
theorem map_span_sort_of_perm (hp : edits.Perm other) :
    (sort edits).map Edit.span = (sort other).map Edit.span := by
  have hsorted : ∀ xs : List Edit, ((sort xs).map Edit.span).Pairwise (· ≤ ·) := fun xs =>
    List.pairwise_map.2 (pairwise_le_sort xs)
  refine List.Perm.eq_of_pairwise ?_ (hsorted edits) (hsorted other) ?_
  · intro a b _ _ hab hba
    exact Span.le_antisymm hab hba
  · exact (((sort_perm edits).trans hp).trans (sort_perm other).symm).map Edit.span

/-- Edits of which no two overlap are sorted into the same list in every order. -/
theorem Applicable.sort_of_perm (h : Applicable text edits) (hp : edits.Perm other) :
    sort edits = sort other :=
  Span.sortOn_eq_of_perm (hp.trans (sort_perm other).symm) (h.perm hp).pairwise_sort

/-! ## Faults of spans -/

theorem misfit?_congr {a b : Edit} (h : a.span = b.span) : misfit? text a = misfit? text b := by
  unfold misfit?
  rw [h]

theorem obstructs_congr {a b c d : Edit} (hac : a.span = c.span) (hbd : b.span = d.span) :
    a.Obstructs b ↔ c.Obstructs d := by
  unfold Obstructs
  rw [hac, hbd]

theorem overlap?_congr (h : xs.map Edit.span = ys.map Edit.span) : overlap? xs = overlap? ys := by
  induction xs generalizing ys with
  | nil =>
    obtain rfl := List.map_eq_nil_iff.1 h.symm
    rfl
  | cons a xs ih =>
    obtain ⟨c, ys, rfl, hca, hrest⟩ := List.map_eq_cons_iff.1 h.symm
    have htail := ih hrest.symm
    cases xs with
    | nil =>
      obtain rfl := List.map_eq_nil_iff.1 hrest
      rfl
    | cons b xs =>
      obtain ⟨d, ys, rfl, hdb, _⟩ := List.map_eq_cons_iff.1 hrest
      rw [overlap?, overlap?, htail]
      simp only [obstructs_congr hca.symm hdb.symm, hca, hdb]

/-- The fault of a sorted list depends on its spans only. -/
theorem fault?_congr (h : xs.map Edit.span = ys.map Edit.span) :
    fault? text xs = fault? text ys := by
  have hspan : misfit? text = (fun s => misfit? text ⟨s, ""⟩) ∘ Edit.span :=
    funext fun _ => misfit?_congr rfl
  unfold fault?
  rw [overlap?_congr h, hspan, ← List.findSome?_map, ← List.findSome?_map, h]

/-! ## Normal form and text -/

/-- **The order of a list of edits does not matter.** In every order the list has the same normal
form and makes the same of the text, or it is refused for the same reason. -/
theorem normalize_of_perm {text : String} (hp : edits.Perm other) :
    (normalize text edits).mapError Refusal.error = (normalize text other).mapError Refusal.error ∧
      applyAll text edits = applyAll text other := by
  unfold applyAll normalize
  have hfault : fault? text.toList (sort edits) = fault? text.toList (sort other) :=
    fault?_congr (map_span_sort_of_perm hp)
  cases h : fault? text.toList (sort edits) with
  | some error =>
    rw [← hfault, h]
    exact ⟨rfl, rfl⟩
  | none =>
    rw [← hfault, h, (fault?_sort_eq_none_iff.1 h).sort_of_perm hp]
    exact ⟨rfl, rfl⟩

/-- Two insertions at one offset are refused in both orders, for the overlap of their spans. -/
theorem normalize_of_perm_insertions :
    applyAll "é" [insertion 2 "a", insertion 2 "b", ⟨⟨0, 2, by decide⟩, "e"⟩]
        = .error (.overlapping (.point 2) (.point 2)) ∧
      applyAll "é" [insertion 2 "b", ⟨⟨0, 2, by decide⟩, "e"⟩, insertion 2 "a"]
        = .error (.overlapping (.point 2) (.point 2)) := by
  have hp : [insertion 2 "a", insertion 2 "b", ⟨⟨0, 2, by decide⟩, "e"⟩].Perm
      [insertion 2 "b", ⟨⟨0, 2, by decide⟩, "e"⟩, insertion 2 "a"] := by decide
  have herror : applyAll "é" [insertion 2 "a", insertion 2 "b", ⟨⟨0, 2, by decide⟩, "e"⟩]
      = .error (.overlapping (.point 2) (.point 2)) := rfl
  exact ⟨herror, (normalize_of_perm hp).2.symm.trans herror⟩

end CallRefactor.Edit
