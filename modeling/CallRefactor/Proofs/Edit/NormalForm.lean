import CallRefactor.Proofs.Edit.Splice

/-!
# Edits in normal form

In a normal form every edit ends strictly before the next one starts: edits that touch have been
joined, runs of any length into one edit. A normal form is its own normal form, and carrying it out
gives the same text as carrying out the edits that it was made from.

Main statements: `normalize_separated`, `normalize_normal` and `applyAll_normal`, and
`normalize_canonical`, which puts them together.
-/

namespace CallRefactor.Edit

variable {text : String} {edits normal : List Edit}

/-- In a normal form every edit ends before the next one starts, with text in between. -/
def Separated (edits : List Edit) : Prop :=
  edits.Pairwise fun a b => a.span.stop < b.span.start

theorem coalesceFrom_separated {e : Edit}
    (h : (e :: edits).Pairwise fun a b => a.span.stop ≤ b.span.start) :
    (∀ x ∈ coalesceFrom e edits, e.span.start ≤ x.span.start) ∧
      Separated (coalesceFrom e edits) := by
  induction edits generalizing e with
  | nil =>
    refine ⟨fun x hx => ?_, List.pairwise_singleton _ _⟩
    obtain rfl := List.mem_singleton.1 hx
    exact Nat.le_refl _
  | cons next rest ih =>
    obtain ⟨hnext, hrest⟩ := List.pairwise_cons.1 h
    have hle := hnext next List.mem_cons_self
    rw [coalesceFrom]
    split
    · next htouch =>
      -- the joined edit starts where `e` does, so the bound holds for the whole run
      obtain ⟨hstart, hstop⟩ := join_span hle
      have hjoined : (e.join next :: rest).Pairwise fun a b => a.span.stop ≤ b.span.start := by
        rw [List.pairwise_cons, hstop]
        exact List.pairwise_cons.1 hrest
      obtain ⟨hfrom, hsep⟩ := ih hjoined
      rw [hstart] at hfrom
      exact ⟨hfrom, hsep⟩
    · next hapart =>
      obtain ⟨hfrom, hsep⟩ := ih hrest
      have he := e.span.start_le_stop
      refine ⟨fun x hx => ?_, List.pairwise_cons.2 ⟨fun x hx => ?_, hsep⟩⟩
      · rcases List.mem_cons.1 hx with rfl | hx
        · exact Nat.le_refl _
        · have hx' := hfrom x hx
          omega
      · have hx' := hfrom x hx
        omega

theorem coalesce_separated (h : edits.Pairwise fun a b => a.span.stop ≤ b.span.start) :
    Separated (coalesce edits) := by
  cases edits with
  | nil => exact .nil
  | cons e rest => exact (coalesceFrom_separated h).2

theorem coalesceFrom_of_separated {e : Edit} (h : Separated (e :: edits)) :
    coalesceFrom e edits = e :: edits := by
  induction edits generalizing e with
  | nil => rfl
  | cons next rest ih =>
    obtain ⟨hnext, hrest⟩ := List.pairwise_cons.1 h
    have hlt := hnext next List.mem_cons_self
    rw [coalesceFrom, if_neg (by omega), ih hrest]

theorem coalesce_of_separated (h : Separated edits) : coalesce edits = edits := by
  cases edits with
  | nil => rfl
  | cons e rest => exact coalesceFrom_of_separated h

theorem Separated.pairwise_precedes (h : Separated edits) :
    edits.Pairwise fun a b => a.span.Precedes b.span := by
  refine h.imp fun {a b} hab => ⟨Nat.le_of_lt hab, fun heq => ?_⟩
  have ha := a.span.start_le_stop
  rw [← heq] at hab
  omega

theorem normalize_separated (h : normalize text edits = .ok normal) : Separated normal := by
  obtain ⟨happ, rfl⟩ := normalize_eq_ok_iff.1 h
  exact coalesce_separated (happ.pairwise_sort.imp Span.Precedes.stop_le)

/-- A normal form is its own normal form. -/
theorem normalize_normal (h : normalize text edits = .ok normal) :
    normalize text normal = .ok normal := by
  have hsep := normalize_separated h
  have hprec := hsep.pairwise_precedes
  obtain ⟨happ, hnormal⟩ := normalize_eq_ok_iff.1 h
  have hwithin := (splice_coalesce happ.within_text).1
  rw [hnormal] at hwithin
  refine normalize_eq_ok_iff.2 ⟨⟨hwithin.fits, hprec.imp Span.Precedes.not_overlaps⟩, ?_⟩
  rw [sort_eq_self hprec, coalesce_of_separated hsep]

/-- Carrying out a normal form gives what the edits give that it was made from. -/
theorem applyAll_normal (h : normalize text edits = .ok normal) :
    applyAll text normal = applyAll text edits := by
  unfold applyAll
  rw [h, normalize_normal h]

theorem applyAll_isOk (h : normalize text edits = .ok normal) :
    ∃ out, applyAll text edits = .ok out := by
  unfold applyAll
  rw [h]
  exact ⟨_, rfl⟩

/-- **A normal form is canonical.** Each of its edits ends strictly before the next one starts,
normalizing it once more succeeds and changes nothing, and it makes of the text what the edits make
of it that it stands for. -/
theorem normalize_canonical (h : normalize text edits = .ok normal) :
    Separated normal ∧ normalize text normal = .ok normal ∧
      ∃ out, applyAll text edits = .ok out ∧ applyAll text normal = .ok out := by
  obtain ⟨out, hout⟩ := applyAll_isOk h
  exact ⟨normalize_separated h, normalize_normal h, out, hout, (applyAll_normal h).trans hout⟩

/-- Insertions at both ends of two replacements that touch make one edit with them. -/
theorem normalize_canonical_chain :
    normalize "xéyz" [insertion 4 ">", ⟨⟨3, 4, by decide⟩, "!"⟩, insertion 1 "<",
        ⟨⟨1, 3, by decide⟩, "é"⟩] = .ok [⟨⟨1, 4, by decide⟩, "<é!>"⟩] ∧
      normalize "xéyz" [⟨⟨1, 4, by decide⟩, "<é!>"⟩] = .ok [⟨⟨1, 4, by decide⟩, "<é!>"⟩] := by
  have hnormal : normalize "xéyz" [insertion 4 ">", ⟨⟨3, 4, by decide⟩, "!"⟩, insertion 1 "<",
      ⟨⟨1, 3, by decide⟩, "é"⟩] = .ok [⟨⟨1, 4, by decide⟩, "<é!>"⟩] := rfl
  exact ⟨hnormal, (normalize_canonical hnormal).2.1⟩

end CallRefactor.Edit
