import CallRefactor.Proofs.Edit.Splice

/-!
# Idle edits

An edit is idle when it writes what already stands in its place. Idle edits can be added to a list
of edits anywhere between the others, and left out again, without changing the text that comes out.
So a list that edits some of the given spans says the same as one that edits all of them.

Main statements: `splice_padded`, idle edits do not change the splice, `padded_filter`, all of them
can be left out, and `exists_padded_of_sublist`, edits of some of the spans can be completed to
edits of all of them.
-/

namespace CallRefactor.Edit

variable {text : String} {a b : Nat} {edits xs ys xs' ys' : List Edit} {spans : List Span}

/-- An edit is idle if it writes what stands in its place. -/
def IsIdle (text : String) (e : Edit) : Prop := e.replacement = Text.slice text e.span

instance (text : String) (e : Edit) : Decidable (e.IsIdle text) :=
  inferInstanceAs (Decidable (_ = _))

/-- The second list is the first one with idle edits in between. -/
inductive Padded (text : String) : List Edit → List Edit → Prop
  | nil : Padded text [] []
  | keep (e : Edit) {xs ys : List Edit} : Padded text xs ys → Padded text (e :: xs) (e :: ys)
  | idle (s : Span) {xs ys : List Edit} :
    Padded text xs ys → Padded text xs (⟨s, Text.slice text s⟩ :: ys)

theorem Padded.sublist (h : Padded text xs ys) : xs.Sublist ys := by
  induction h with
  | nil => exact .slnil
  | keep e _ ih => exact ih.cons_cons e
  | idle s _ ih => exact ih.cons _

theorem Padded.append (h : Padded text xs ys) (h' : Padded text xs' ys') :
    Padded text (xs ++ xs') (ys ++ ys') := by
  induction h with
  | nil => exact h'
  | keep e _ ih => exact ih.keep e
  | idle s _ ih => exact ih.idle s

theorem Padded.cons_of_isIdle {e : Edit} (he : e.IsIdle text) (h : Padded text xs ys) :
    Padded text xs (e :: ys) := by
  obtain ⟨span, replacement⟩ := e
  obtain rfl : replacement = Text.slice text span := he
  exact h.idle span

/-- All idle edits can be left out. -/
theorem padded_filter (text : String) (edits : List Edit) :
    Padded text (edits.filter fun e => ¬ e.IsIdle text) edits := by
  induction edits with
  | nil => exact .nil
  | cons e edits ih =>
    by_cases he : e.IsIdle text
    · rw [List.filter_cons_of_neg (by simpa using he)]
      exact ih.cons_of_isIdle he
    · rw [List.filter_cons_of_pos (by simpa using he)]
      exact ih.keep e

/-- Edits of some of the spans can be completed to edits of all of them. -/
theorem exists_padded_of_sublist (h : (edits.map Edit.span).Sublist spans) :
    ∃ contents : List String, contents.length = spans.length ∧
      Padded text edits (List.zipWith Edit.mk spans contents) := by
  induction spans generalizing edits with
  | nil =>
    have hnil : edits = [] := by simpa using h
    subst hnil
    exact ⟨[], rfl, .nil⟩
  | cons s spans ih =>
    rcases List.sublist_cons_iff.1 h with h | ⟨rest, hrest, h⟩
    · -- no edit of this span, so an idle one takes its place
      obtain ⟨contents, hlen, hpad⟩ := ih h
      exact ⟨Text.slice text s :: contents, by simp [hlen], hpad.idle s⟩
    · obtain ⟨e, edits', rfl, rfl, rfl⟩ := List.map_eq_cons_iff.1 hrest
      obtain ⟨contents, hlen, hpad⟩ := ih h
      exact ⟨e.replacement :: contents, by simp [hlen], hpad.keep e⟩

theorem map_span_zipWith {contents : List String} (h : contents.length = spans.length) :
    (List.zipWith Edit.mk spans contents).map Edit.span = spans := by
  induction spans generalizing contents with
  | nil => rfl
  | cons s spans ih =>
    cases contents with
    | nil => simp at h
    | cons c contents =>
      rw [List.zipWith_cons_cons, List.map_cons, ih (by simpa using h)]

/-- Without the idle edits a span has an edit exactly when something else is written there. -/
theorem exists_mem_filter_iff {contents : List String} (hspans : spans.Pairwise Span.Precedes)
    (hlen : contents.length = spans.length) {i : Nat} {span : Span} {content : String}
    (hspan : spans[i]? = some span) (hcontent : contents[i]? = some content) :
    (∃ e ∈ (List.zipWith Edit.mk spans contents).filter fun e => ¬ e.IsIdle text,
      e.span = span) ↔ content ≠ Text.slice text span := by
  have hmem : (⟨span, content⟩ : Edit) ∈ List.zipWith Edit.mk spans contents :=
    List.mem_of_getElem? (List.getElem?_zipWith_eq_some.2 ⟨_, _, hspan, hcontent, rfl⟩)
  have hapart : (List.zipWith Edit.mk spans contents).Pairwise
      fun a b => a.span.Precedes b.span := by
    rw [← map_span_zipWith hlen] at hspans
    exact List.pairwise_map.1 hspans
  constructor
  · rintro ⟨e, he, hspan'⟩
    obtain ⟨he, hidle⟩ := List.mem_filter.1 he
    rcases Span.eq_or_precedes_of_mem hapart he hmem with rfl | hprec | hprec
    · exact of_decide_eq_true hidle
    · exact absurd hspan' hprec.2
    · exact absurd hspan'.symm hprec.2
  · intro hne
    exact ⟨_, List.mem_filter.2 ⟨hmem, decide_eq_true hne⟩, rfl⟩

/-! ## Idle edits do nothing -/

/-- An idle edit in front of others does not change their splice. -/
theorem splice_idle {s : Span}
    (h : Within text.toList a (⟨s, Text.slice text s⟩ :: edits) b) :
    splice text.toList a (⟨s, Text.slice text s⟩ :: edits) b = splice text.toList a edits b := by
  have hs : s.Fits text.toList := h.fits _ List.mem_cons_self
  have has : a ≤ s.start := h.from_start _ List.mem_cons_self
  have hle := s.start_le_stop
  have hrest : Within text.toList s.stop edits b := h.tail
  rw [splice_eq_between_append h.start (Nat.le_trans has hle) hrest,
    ← Text.between_append_between h.start hs.1 hs.2 has hle]
  simp only [splice, Text.slice, String.toList_ofList, List.append_assoc]

/-- Idle edits do not change the splice. -/
theorem splice_padded (h : Padded text xs ys) (hw : Within text.toList a ys b) :
    splice text.toList a xs b = splice text.toList a ys b := by
  induction h generalizing a with
  | nil => rfl
  | keep e _ ih =>
    simp only [splice]
    rw [ih hw.tail]
  | @idle s xs ys hpad ih =>
    have hle := s.start_le_stop
    have has : a ≤ s.start := hw.from_start _ List.mem_cons_self
    have hrest : Within text.toList s.stop ys b := hw.tail
    have htail : Within text.toList a ys b :=
      Within.append (Within.nil hw.start hrest.start (by omega)) hrest
    rw [splice_idle hw, ih htail]

end CallRefactor.Edit
