import CallRefactor.Edit.FixList
import CallRefactor.Proofs.Edit.Refusal

/-!
# Batches of edits, taken or refused

A list of fixes is offered one batch of edits after another. A batch that overlaps a held edit is
refused and leaves no trace; any other batch is appended. Batches are compared with what is held and
not with themselves, so the held edits keep apart as long as the edits of each batch do.

Main statements: `held_offerAll`, what is held after a run; `pairwise_held_offerAll_iff`, when no
two of the held edits overlap; and `offerAll_invariant`, what holds in every state that a run
reaches.
-/

namespace CallRefactor.FixList

variable {fixes more : FixList} {batch : List Edit} {batches : List (List Edit)} {s : Span}

/-! ## One batch -/

/-- A batch collides with nothing exactly when none of its edits overlaps a held one. -/
theorem clash?_eq_none_iff :
    fixes.clash? batch = none ↔ ∀ a ∈ fixes.held, ∀ b ∈ batch, ¬ a.span.Overlaps b.span := by
  unfold clash?
  simp only [List.findSome?_eq_none_iff, Option.map_eq_none_iff, List.find?_eq_none,
    decide_eq_true_eq]
  exact ⟨fun h a ha b hb => h b hb a ha, fun h b hb a ha => h a ha b hb⟩

/-- The span that a collision names is that of a held edit, which an edit of the batch overlaps. -/
theorem clash?_eq_some (h : fixes.clash? batch = some s) :
    ∃ a ∈ fixes.held, a.span = s ∧ ∃ b ∈ batch, a.span.Overlaps b.span := by
  obtain ⟨b, hb, hfound⟩ := List.exists_of_findSome?_eq_some h
  obtain ⟨a, hfind, rfl⟩ := Option.map_eq_some_iff.1 hfound
  have hoverlap := List.find?_some hfind
  exact ⟨a, List.mem_of_find?_eq_some hfind, rfl, b, hb, of_decide_eq_true hoverlap⟩

theorem tryExtend_eq_ok_iff :
    fixes.tryExtend batch = .ok more ↔
      (∀ a ∈ fixes.held, ∀ b ∈ batch, ¬ a.span.Overlaps b.span) ∧
        more = ⟨fixes.held ++ batch⟩ := by
  rw [← clash?_eq_none_iff, tryExtend]
  cases fixes.clash? batch with
  | none => simp [eq_comm]
  | some s => simp

theorem tryExtend_eq_error_iff :
    fixes.tryExtend batch = .error s ↔ fixes.clash? batch = some s := by
  rw [tryExtend]
  cases fixes.clash? batch <;> simp

/-- A batch is refused exactly when one of its edits overlaps a held one. -/
theorem exists_tryExtend_eq_error_iff :
    (∃ s, fixes.tryExtend batch = .error s) ↔
      ∃ a ∈ fixes.held, ∃ b ∈ batch, a.span.Overlaps b.span := by
  constructor
  · rintro ⟨s, h⟩
    obtain ⟨a, ha, _, b, hb, hab⟩ := clash?_eq_some (tryExtend_eq_error_iff.1 h)
    exact ⟨a, ha, b, hb, hab⟩
  · rintro ⟨a, ha, b, hb, hab⟩
    cases h : fixes.tryExtend batch with
    | error s => exact ⟨s, rfl⟩
    | ok more => exact absurd hab ((tryExtend_eq_ok_iff.1 h).1 a ha b hb)

/-! ## Runs -/

/-- The list once a batch has been offered. It is the same list if the batch is refused. -/
def offer (fixes : FixList) (batch : List Edit) : FixList :=
  match fixes.tryExtend batch with
  | .ok more => more
  | .error _ => fixes

/-- The list once batches have been offered one after the other. -/
def offerAll (fixes : FixList) (batches : List (List Edit)) : FixList := batches.foldl offer fixes

/-- The batches that are not refused when they are offered one after the other. -/
def taken (fixes : FixList) : List (List Edit) → List (List Edit)
  | [] => []
  | batch :: rest =>
    match fixes.tryExtend batch with
    | .ok more => batch :: taken more rest
    | .error _ => taken fixes rest

theorem offer_of_ok (h : fixes.tryExtend batch = .ok more) : fixes.offer batch = more := by
  rw [offer, h]

theorem offer_of_error (h : fixes.tryExtend batch = .error s) : fixes.offer batch = fixes := by
  rw [offer, h]

theorem offerAll_cons (fixes : FixList) (batch : List Edit) (rest : List (List Edit)) :
    fixes.offerAll (batch :: rest) = (fixes.offer batch).offerAll rest := rfl

theorem taken_cons_of_ok {rest : List (List Edit)} (h : fixes.tryExtend batch = .ok more) :
    fixes.taken (batch :: rest) = batch :: more.taken rest := by
  rw [taken, h]

theorem taken_cons_of_error {rest : List (List Edit)} (h : fixes.tryExtend batch = .error s) :
    fixes.taken (batch :: rest) = fixes.taken rest := by
  rw [taken, h]

/-- A run appends the batches that are taken. -/
theorem held_offerAll (fixes : FixList) (batches : List (List Edit)) :
    (fixes.offerAll batches).held = fixes.held ++ (fixes.taken batches).flatten := by
  induction batches generalizing fixes with
  | nil => simp [offerAll, taken]
  | cons batch rest ih =>
    rw [offerAll_cons]
    cases h : fixes.tryExtend batch with
    | ok more =>
      obtain ⟨_, hmore⟩ := tryExtend_eq_ok_iff.1 h
      rw [offer_of_ok h, taken_cons_of_ok h, ih, hmore, List.flatten_cons, List.append_assoc]
    | error s => rw [offer_of_error h, taken_cons_of_error h, ih]

theorem taken_sublist (fixes : FixList) (batches : List (List Edit)) :
    (fixes.taken batches).Sublist batches := by
  induction batches generalizing fixes with
  | nil => exact .slnil
  | cons batch rest ih =>
    cases h : fixes.tryExtend batch with
    | ok more =>
      rw [taken_cons_of_ok h]
      exact (ih more).cons_cons batch
    | error s =>
      rw [taken_cons_of_error h]
      exact (ih fixes).cons batch

/-- Without the refused batches a run ends with the same list. -/
theorem offerAll_taken (fixes : FixList) (batches : List (List Edit)) :
    fixes.offerAll (fixes.taken batches) = fixes.offerAll batches := by
  induction batches generalizing fixes with
  | nil => rfl
  | cons batch rest ih =>
    cases h : fixes.tryExtend batch with
    | ok more => rw [taken_cons_of_ok h, offerAll_cons, offerAll_cons, offer_of_ok h, ih]
    | error s => rw [taken_cons_of_error h, offerAll_cons, offer_of_error h, ih]

/-- Held edits overlap only if they came with one batch. -/
theorem pairwise_held_offerAll_iff :
    ((fixes.offerAll batches).held.Pairwise fun a b => ¬ a.span.Overlaps b.span) ↔
      (fixes.held.Pairwise fun a b => ¬ a.span.Overlaps b.span) ∧
        ∀ batch ∈ fixes.taken batches, batch.Pairwise fun a b => ¬ a.span.Overlaps b.span := by
  induction batches generalizing fixes with
  | nil => simp [offerAll, taken]
  | cons batch rest ih =>
    rw [offerAll_cons]
    cases h : fixes.tryExtend batch with
    | ok more =>
      -- the batch is apart from what is held, so it only has to be apart in itself
      obtain ⟨hapart, rfl⟩ := tryExtend_eq_ok_iff.1 h
      rw [offer_of_ok h, taken_cons_of_ok h, ih, List.pairwise_append, List.forall_mem_cons]
      constructor
      · rintro ⟨⟨hheld, hbatch, _⟩, hrest⟩
        exact ⟨hheld, hbatch, hrest⟩
      · rintro ⟨hheld, hbatch, hrest⟩
        exact ⟨⟨hheld, hbatch, hapart⟩, hrest⟩
    | error s => rw [offer_of_error h, taken_cons_of_error h, ih]

/-! ## The edits of a run -/

/-- Held edits that are apart are never refused for an overlap. -/
theorem finish_ne_overlapping (text : String)
    (h : fixes.held.Pairwise fun a b => ¬ a.span.Overlaps b.span) (first second : Span) :
    fixes.finish text ≠ .error (.overlapping first second) := by
  intro hfinish
  exact (Edit.exists_overlapping_iff.1 ⟨first, second, hfinish⟩).2 h

/-- The held edits have a normal form exactly when they are applicable. -/
theorem exists_finish_eq_ok_iff (text : String) :
    (∃ edits, fixes.finish text = .ok edits) ↔ Edit.Applicable text.toList fixes.held := by
  unfold finish
  constructor
  · rintro ⟨edits, h⟩
    cases hnormal : Edit.normalize text fixes.held with
    | ok normal => exact (Edit.normalize_eq_ok_iff.1 hnormal).1
    | error refusal => rw [hnormal] at h; cases h
  · intro h
    rw [Edit.normalize_eq_ok_iff.2 ⟨h, rfl⟩]
    exact ⟨_, rfl⟩

/-- **Runs that start with the empty list.** If no two edits of one batch overlap, then in every
state that is reached the list holds the edits of the batches taken so far and nothing else, and no
two of them overlap. The next batch is refused exactly when one of its edits overlaps a held edit. A
refusal names such a held edit, and neither it nor those before it have changed the list. The held
edits are never refused for an overlap, and they have a normal form if all of them stand on
boundaries of the text. -/
theorem offerAll_invariant (text : String) (batches : List (List Edit))
    (hbatches : ∀ batch ∈ batches, batch.Pairwise fun a b => ¬ a.span.Overlaps b.span)
    {fixes : FixList} (hrun : offerAll ∅ batches = fixes) :
    fixes.held = (taken ∅ batches).flatten ∧
      (fixes.held.Pairwise fun a b => ¬ a.span.Overlaps b.span) ∧
      (∀ batch, (∃ s, fixes.tryExtend batch = .error s) ↔
        ∃ a ∈ fixes.held, ∃ b ∈ batch, a.span.Overlaps b.span) ∧
      (∀ batch s, fixes.tryExtend batch = .error s →
        (∃ a ∈ fixes.held, a.span = s ∧ ∃ b ∈ batch, a.span.Overlaps b.span) ∧
          offerAll ∅ (batches ++ [batch]) = fixes) ∧
      offerAll ∅ (taken ∅ batches) = fixes ∧
      (∀ first second, fixes.finish text ≠ .error (.overlapping first second)) ∧
      ((∀ e ∈ fixes.held, e.span.stop ≤ Text.byteLength text.toList ∧
          Text.IsBoundary text.toList e.span.start ∧ Text.IsBoundary text.toList e.span.stop) →
        ∃ edits, fixes.finish text = .ok edits) := by
  subst hrun
  have hapart : (offerAll ∅ batches).held.Pairwise fun a b => ¬ a.span.Overlaps b.span := by
    refine pairwise_held_offerAll_iff.2 ⟨.nil, fun batch hbatch => ?_⟩
    exact hbatches batch ((taken_sublist ∅ batches).subset hbatch)
  refine ⟨held_offerAll ∅ batches, hapart, fun _ => exists_tryExtend_eq_error_iff, ?_,
    offerAll_taken ∅ batches, finish_ne_overlapping text hapart, ?_⟩
  · intro batch s h
    refine ⟨clash?_eq_some (tryExtend_eq_error_iff.1 h), ?_⟩
    calc offerAll ∅ (batches ++ [batch]) = (offerAll ∅ batches).offer batch := List.foldl_concat ..
      _ = _ := offer_of_error h
  · intro hfits
    exact (exists_finish_eq_ok_iff text).2 ⟨fun e he => (hfits e he).2, hapart⟩

/-- A replaced argument keeps out the whole batch of a call inside it. An insertion where it ends
only touches it, and a second one there overlaps the first. -/
theorem offerAll_invariant_nested :
    ∃ fixes, offerAll ∅ [[⟨⟨4, 12, by decide⟩, "a.f(\"X\")"⟩],
        [⟨⟨0, 1, by decide⟩, "b"⟩, ⟨⟨8, 11, by decide⟩, "\"X\""⟩], [.insertion 12 ""]] = fixes ∧
      fixes.held = [⟨⟨4, 12, by decide⟩, "a.f(\"X\")"⟩, .insertion 12 ""] ∧
      fixes.tryExtend [.insertion 12 "y"] = .error (.point 12) ∧
      fixes.finish "a.f(a.f(\"x\"));" = .ok [⟨⟨4, 12, by decide⟩, "a.f(\"X\")"⟩] := by
  have hbatches : ∀ batch ∈ ([[⟨⟨4, 12, by decide⟩, "a.f(\"X\")"⟩],
      [⟨⟨0, 1, by decide⟩, "b"⟩, ⟨⟨8, 11, by decide⟩, "\"X\""⟩], [.insertion 12 ""]] :
        List (List Edit)), batch.Pairwise fun a b => ¬ a.span.Overlaps b.span := by
    decide
  obtain ⟨hheld, _⟩ := offerAll_invariant "a.f(a.f(\"x\"));" _ hbatches rfl
  exact ⟨_, rfl, hheld, rfl, rfl⟩

end CallRefactor.FixList
