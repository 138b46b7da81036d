import CallRefactor.Edit.Normalize
import CallRefactor.Proofs.Span.Precedence
import CallRefactor.Proofs.Text.Cut

/-!
# Lists of edits that fit a text

A list of edits is applicable to a text when every edit stands on boundaries of the text and no two
of the edits overlap. Neither depends on the order of the list.

The checks look only at neighbours of the sorted list. That is enough: there an edit that reaches
into any later edit reaches into the next one.

Main statements: `fault?_sort_eq_none_iff` and `normalize_eq_ok_iff`, the checks pass exactly the
applicable lists.
-/

namespace CallRefactor

/-- A span fits a text when both its ends are boundaries of the text. -/
def Span.Fits (text : List Char) (s : Span) : Prop :=
  Text.IsBoundary text s.start ∧ Text.IsBoundary text s.stop

instance (text : List Char) (s : Span) : Decidable (s.Fits text) :=
  inferInstanceAs (Decidable (_ ∧ _))

namespace Edit

variable {text : List Char} {edits : List Edit}

theorem sort_perm (edits : List Edit) : (sort edits).Perm edits :=
  Span.sortOn_perm Edit.span edits

theorem mem_sort {e : Edit} : e ∈ sort edits ↔ e ∈ edits := (sort_perm edits).mem_iff

theorem pairwise_le_sort (edits : List Edit) :
    (sort edits).Pairwise fun a b => a.span ≤ b.span :=
  Span.pairwise_sortOn Edit.span edits

/-- A list of edits is applicable to a text when all of them can be carried out on it together. -/
structure Applicable (text : List Char) (edits : List Edit) : Prop where
  /-- Every edit stands on boundaries of the text. -/
  fits : ∀ e ∈ edits, e.span.Fits text
  /-- No two edits overlap. -/
  apart : edits.Pairwise fun a b => ¬ a.span.Overlaps b.span

theorem Applicable.perm {other : List Edit} (h : Applicable text edits)
    (hp : edits.Perm other) : Applicable text other where
  fits e he := h.fits e (hp.mem_iff.2 he)
  apart := h.apart.perm hp fun hn ho => hn (Span.overlaps_comm.1 ho)

theorem Applicable.sublist {part : List Edit} (h : Applicable text edits)
    (hs : part.Sublist edits) : Applicable text part where
  fits e he := h.fits e (hs.subset he)
  apart := h.apart.sublist hs

/-- Sorted, the edits of an applicable list precede each other. -/
theorem Applicable.pairwise_sort (h : Applicable text edits) :
    (sort edits).Pairwise fun a b => a.span.Precedes b.span :=
  Span.pairwise_precedes_sortOn h.apart

/-- Edits that precede each other are sorted already. -/
theorem sort_eq_self (h : edits.Pairwise fun a b => a.span.Precedes b.span) : sort edits = edits :=
  Span.sortOn_eq_of_perm (.refl _) h

/-! ## Checks -/

theorem misfit?_eq_none_iff {e : Edit} : misfit? text e = none ↔ e.span.Fits text := by
  unfold misfit? Span.Fits
  constructor
  · intro h
    split at h
    · simp at h
    · split at h
      · simp at h
      · next hstart =>
        split at h
        · simp at h
        · next hstop => exact ⟨by simpa using hstart, by simpa using hstop⟩
  · rintro ⟨hstart, hstop⟩
    have hle := hstop.le_byteLength
    rw [if_neg (by omega), if_neg (by simpa using hstart), if_neg (by simpa using hstop)]

/-- In the order of their spans an edit gets in the way of another exactly when they overlap. -/
theorem obstructs_iff {a b : Edit} (h : a.span ≤ b.span) :
    a.Obstructs b ↔ a.span.Overlaps b.span := by
  have ha := a.span.start_le_stop
  have hb := b.span.start_le_stop
  rw [Span.le_iff] at h
  constructor
  · rintro (hlt | ⟨hempty, -, heq⟩)
    · -- edits that start together are sorted by their stops, so the second one is not empty
      exact .inl ⟨by omega, hlt⟩
    · exact .inr ⟨hempty, heq⟩
  · rintro (⟨-, hlt⟩ | ⟨hempty, heq⟩)
    · exact .inl hlt
    · exact .inr ⟨hempty, heq ▸ hempty, heq⟩

/-- In a sorted list an overlap of any two edits shows at two neighbours. -/
theorem overlap?_eq_none_iff (h : edits.Pairwise fun a b => a.span ≤ b.span) :
    overlap? edits = none ↔ edits.Pairwise fun a b => a.span.Precedes b.span := by
  induction edits with
  | nil => simp [overlap?]
  | cons a edits ih =>
    cases edits with
    | nil => simp [overlap?]
    | cons b rest =>
      obtain ⟨ha, hrest⟩ := List.pairwise_cons.1 h
      have hab : a.span ≤ b.span := ha b List.mem_cons_self
      rw [overlap?]
      constructor
      · intro hnone
        split at hnone
        · simp at hnone
        · next hn =>
          have hprec : a.span.Precedes b.span :=
            Span.precedes_of_le hab fun hover => hn ((obstructs_iff hab).2 hover)
          have htail := (ih hrest).1 hnone
          refine List.pairwise_cons.2 ⟨fun c hc => ?_, htail⟩
          rcases List.mem_cons.1 hc with rfl | hc
          · exact hprec
          · exact hprec.trans ((List.pairwise_cons.1 htail).1 c hc)
      · intro hall
        obtain ⟨hab', htail⟩ := List.pairwise_cons.1 hall
        have hn := (hab' b List.mem_cons_self).not_overlaps
        rw [if_neg fun hobstructs => hn ((obstructs_iff hab).1 hobstructs)]
        exact (ih hrest).2 htail

/-- The checks find no fault exactly in the applicable lists. -/
theorem fault?_sort_eq_none_iff : fault? text (sort edits) = none ↔ Applicable text edits := by
  unfold fault?
  rw [Option.or_eq_none_iff, List.findSome?_eq_none_iff,
    overlap?_eq_none_iff (pairwise_le_sort edits)]
  constructor
  · rintro ⟨hfit, hprec⟩
    have happ : Applicable text (sort edits) :=
      ⟨fun e he => misfit?_eq_none_iff.1 (hfit e he), hprec.imp Span.Precedes.not_overlaps⟩
    exact happ.perm (sort_perm edits)
  · intro h
    exact ⟨fun e he => misfit?_eq_none_iff.2 (h.fits e (mem_sort.1 he)),
      h.pairwise_sort⟩

/-- Exactly the applicable lists have a normal form. -/
theorem normalize_eq_ok_iff {text : String} {normal : List Edit} :
    normalize text edits = .ok normal ↔
      Applicable text.toList edits ∧ coalesce (sort edits) = normal := by
  unfold normalize
  rw [← fault?_sort_eq_none_iff]
  cases fault? text.toList (sort edits) <;> simp

end Edit

end CallRefactor
