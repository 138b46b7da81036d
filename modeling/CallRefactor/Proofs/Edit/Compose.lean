import CallRefactor.Edit.Compose
import CallRefactor.Proofs.Edit.Splice

/-!
# Composing and applying

Edits inside a span can be folded into one new text for the whole span first. What the other edits
do to the text is not touched by that as long as none of them overlaps the span: each stands either
before it or after it, and the edits inside come between the two groups.

Main statements: `compose_eq_ok`, edits that lie inside a span and do not overlap compose to their
splice; and `applyAll_compose`, composing some of the edits first does not change the text that
comes out.
-/

namespace CallRefactor.Edit

variable {text : String} {s : Span} {edits inner others : List Edit} {cursor : Nat}

/-! ## The composed text -/

theorem composeFrom_eq_ok (hin : ∀ e ∈ edits, s.Contains e.span)
    (hfrom : ∀ e ∈ edits, cursor ≤ e.span.start)
    (hord : edits.Pairwise fun a b => a.span.stop ≤ b.span.start) :
    composeFrom text s cursor edits = .ok (splice text.toList cursor edits s.stop) := by
  induction edits generalizing cursor with
  | nil => rfl
  | cons e rest ih =>
    have he := hin e List.mem_cons_self
    have hcursor := hfrom e List.mem_cons_self
    obtain ⟨hnext, hrest⟩ := List.pairwise_cons.1 hord
    unfold composeFrom
    rw [if_neg (by simpa using he), if_neg (by omega),
      ih (fun x hx => hin x (List.mem_cons_of_mem _ hx)) hnext hrest]
    simp only [Except.map, splice, List.append_assoc]

/-- There is room for what stands under a span of the text. -/
theorem length_le_capacity (h : s.Fits text.toList) : s.length ≤ capacity text := by
  have hstop := h.2.le_byteLength
  unfold Span.length capacity
  omega

/-- Edits that lie inside a span and do not overlap compose to their splice, if there is room for as
much as the span takes up. -/
theorem compose_eq_ok (hne : edits ≠ []) (hin : ∀ e ∈ edits, s.Contains e.span)
    (hapart : edits.Pairwise fun a b => ¬ a.span.Overlaps b.span)
    (hroom : s.length ≤ capacity text) :
    compose text s edits
      = .ok (some (String.ofList (splice text.toList s.start (sort edits) s.stop))) := by
  have hsorted : (sort edits).Pairwise fun a b => a.span.Precedes b.span :=
    Span.pairwise_precedes_sortOn hapart
  have hmem : ∀ e ∈ sort edits, s.Contains e.span :=
    fun e he => hin e (mem_sort.1 he)
  unfold compose
  rw [if_neg (by simpa using hne), if_neg (Nat.not_lt.2 hroom),
    composeFrom_eq_ok hmem (fun e he => (hmem e he).1) (hsorted.imp Span.Precedes.stop_le)]
  rfl

/-! ## Edits around a span -/

/-- The edits that stand before a span. -/
def before (s : Span) (edits : List Edit) : List Edit :=
  edits.filter fun e => e.span.Precedes s

/-- The edits that do not stand before a span. -/
def after (s : Span) (edits : List Edit) : List Edit :=
  edits.filter fun e => ¬ e.span.Precedes s

theorem mem_before {e : Edit} : e ∈ before s edits ↔ e ∈ edits ∧ e.span.Precedes s := by
  simp [before]

theorem precedes_of_mem_after (hout : ∀ o ∈ others, ¬ s.Overlaps o.span) {o : Edit}
    (ho : o ∈ after s others) : s.Precedes o.span := by
  obtain ⟨hmem, hn⟩ := List.mem_filter.1 ho
  rcases Span.not_overlaps_iff.1 (hout o hmem) with h | h
  · exact h
  · exact absurd h (by simpa using hn)

/-- Sorted, the edits inside a span come between those before it and those after it. -/
theorem sort_append_eq (h : Applicable text.toList (inner ++ others))
    (hin : ∀ e ∈ inner, s.Contains e.span) (hout : ∀ o ∈ others, ¬ s.Overlaps o.span) :
    sort (inner ++ others)
      = sort (before s others) ++ (sort inner ++ sort (after s others)) := by
  have hinner := h.sublist (List.sublist_append_left inner others)
  have hothers := h.sublist (List.sublist_append_right inner others)
  have hcross := (List.pairwise_append.1 h.apart).2.2
  -- each of the three parts precedes the next, so no other arrangement is sorted
  refine Span.sortOn_eq_of_perm ?_ (List.pairwise_append.2 ⟨?_, ?_, ?_⟩)
  · have hsplit : (before s others ++ after s others).Perm others := by
      simpa [before, after] using List.filter_append_perm (fun e => e.span.Precedes s) others
    calc inner ++ others
      _ |>.Perm (inner ++ (before s others ++ after s others)) := hsplit.symm.append_left inner
      _ |>.Perm (before s others ++ (inner ++ after s others)) := by
        rw [← List.append_assoc, ← List.append_assoc]
        exact List.perm_append_comm.append_right _
      _ |>.Perm (sort (before s others) ++ (sort inner ++ sort (after s others))) :=
        ((sort_perm _).append ((sort_perm _).append (sort_perm _))).symm
  · exact (hothers.sublist List.filter_sublist).pairwise_sort
  · refine List.pairwise_append.2 ⟨hinner.pairwise_sort,
      (hothers.sublist List.filter_sublist).pairwise_sort, ?_⟩
    intro e he o ho
    have he' := mem_sort.1 he
    have ho' := mem_sort.1 ho
    have hstop := (precedes_of_mem_after hout ho').stop_le
    have hle := (hin e he').2
    exact Span.precedes_of_stop_le (by omega) (hcross e he' o (List.mem_filter.1 ho').1)
  · intro o ho e he
    obtain ⟨ho', hprec⟩ := mem_before.1 (mem_sort.1 ho)
    rcases List.mem_append.1 he with he | he
    · have he' := mem_sort.1 he
      have hle := (hin e he').1
      have hstop := hprec.stop_le
      exact Span.precedes_of_stop_le (by omega)
        fun hover => hcross e he' o ho' (Span.overlaps_comm.1 hover)
    · exact hprec.trans (precedes_of_mem_after hout (mem_sort.1 he))

/-- The splice of edits inside a span and others around it has the splice of the inner ones where
the span was. -/
theorem splice_sort_append (h : Applicable text.toList (inner ++ others))
    (hs : s.Fits text.toList) (hin : ∀ e ∈ inner, s.Contains e.span)
    (hout : ∀ o ∈ others, ¬ s.Overlaps o.span) :
    splice text.toList 0 (sort (inner ++ others)) (Text.byteLength text.toList)
      = splice text.toList 0 (sort (before s others)) s.start
        ++ (splice text.toList s.start (sort inner) s.stop
          ++ splice text.toList s.stop (sort (after s others)) (Text.byteLength text.toList)) := by
  have hinner := h.sublist (List.sublist_append_left inner others)
  have hothers := h.sublist (List.sublist_append_right inner others)
  have hbefore : Within text.toList 0 (sort (before s others)) s.start :=
    (hothers.sublist List.filter_sublist).within (s := ⟨0, s.start, Nat.zero_le _⟩)
      ⟨Text.isBoundary_zero _, hs.1⟩ fun e he => ⟨Nat.zero_le _, (mem_before.1 he).2.stop_le⟩
  have hafter : Within text.toList s.stop (sort (after s others))
      (Text.byteLength text.toList) :=
    (hothers.sublist List.filter_sublist).within (s := ⟨s.stop, _, hs.2.le_byteLength⟩)
      ⟨hs.2, Text.isBoundary_byteLength _⟩ fun e he =>
        ⟨(precedes_of_mem_after hout he).stop_le,
          (hothers.fits e (List.mem_filter.1 he).1).2.le_byteLength⟩
  have hmiddle : Within text.toList s.start (sort inner) s.stop := hinner.within hs hin
  rw [sort_append_eq h hin hout, splice_append hbefore (hmiddle.append hafter),
    splice_append hmiddle hafter]

/-- An edit of a span writes its replacement where the span was. -/
theorem splice_singleton {replacement : String} {cs : List Char} (hs : s.Fits cs) :
    splice cs s.start [⟨s, replacement⟩] s.stop = replacement.toList := by
  simp only [splice, Text.between_self hs.1, Text.between_self hs.2, List.nil_append,
    List.append_nil]

/-- **Composing some of the edits first does not change the text that comes out.** Edits that all
lie inside a span compose, and one edit of the span with the composed text takes their place next
to other edits that do not overlap the span. -/
theorem applyAll_compose {subs : List Edit} {out : String} (hs : s.Fits text.toList)
    (hne : subs ≠ []) (hin : ∀ e ∈ subs, s.Contains e.span)
    (hout : ∀ o ∈ others, ¬ s.Overlaps o.span) (h : applyAll text (subs ++ others) = .ok out) :
    ∃ composed, compose text s subs = .ok (some composed) ∧
      applyAll text (⟨s, composed⟩ :: others) = .ok out := by
  obtain ⟨happ, rfl⟩ := applyAll_eq_ok_iff.1 h
  have hsubs := happ.sublist (List.sublist_append_left subs others)
  have hothers := happ.sublist (List.sublist_append_right subs others)
  refine ⟨_, compose_eq_ok hne hin hsubs.apart (length_le_capacity hs), ?_⟩
  generalize hcomposed : String.ofList (splice text.toList s.start (sort subs) s.stop) = composed
  have hwhole : Applicable text.toList ([⟨s, composed⟩] ++ others) := by
    refine ⟨fun e he => ?_, List.pairwise_cons.2 ⟨hout, hothers.apart⟩⟩
    rcases List.mem_cons.1 he with rfl | he
    · exact hs
    · exact hothers.fits e he
  have hself : ∀ e ∈ [(⟨s, composed⟩ : Edit)], s.Contains e.span := by
    intro e he
    rw [List.mem_singleton.1 he]
    exact ⟨Nat.le_refl _, Nat.le_refl _⟩
  have hmiddle : splice text.toList s.start (sort [⟨s, composed⟩]) s.stop
      = splice text.toList s.start (sort subs) s.stop := by
    show splice text.toList s.start [⟨s, composed⟩] s.stop = _
    rw [splice_singleton hs, ← hcomposed, String.toList_ofList]
  refine applyAll_eq_ok_iff.2 ⟨hwhole, ?_⟩
  show String.ofList (splice text.toList 0 (sort ([⟨s, composed⟩] ++ others)) _) = _
  rw [splice_sort_append hwhole hs hself hout, splice_sort_append happ hs hin hout, hmiddle]

/-- An insertion where the span starts, behind an edit that ends there, and another one where it
stops. -/
theorem applyAll_compose_touching :
    ∃ composed,
      compose "xéy-z" ⟨1, 4, by decide⟩ [⟨⟨3, 4, by decide⟩, "Y"⟩, insertion 1 "<"]
        = .ok (some composed) ∧
      applyAll "xéy-z"
        (⟨⟨1, 4, by decide⟩, composed⟩ :: [⟨⟨0, 1, by decide⟩, "X"⟩, insertion 4 "!"])
        = .ok "X<éY!-z" :=
  applyAll_compose (by decide +kernel) (by decide) (by decide) (by decide) (by rfl)

end CallRefactor.Edit
