import CallRefactor.Proofs.Fix.Verdict

/-!
# Insertions at one offset

The fixes of one call are checked by their order alone: each has to end before the next one starts,
or where it starts. Two insertions at one offset pass this check, and nothing compares the fixes of
a call with each other afterwards, until the fixes of the whole file are brought into normal form.
There the two overlap, and the file is refused although all its fixes fit the text.

Main statement: `fixFile_overlapping_iff`, this is the only way in which fixes of a file overlap,
and a file is refused for nothing else but a fix that does not fit.
-/

namespace CallRefactor

/-! ## Edits in sequence -/

/-- Edits in sequence overlap only if they are insertions at one offset. -/
theorem Edit.not_pairwise_iff {edits : List Edit}
    (h : edits.Pairwise fun a b => a.span.stop ≤ b.span.start) :
    (¬ edits.Pairwise fun a b => ¬ a.span.Overlaps b.span) ↔
      ∃ offset s t, [insertion offset s, insertion offset t].Sublist edits := by
  simp only [List.pairwise_iff_forall_sublist, not_forall, Decidable.not_not] at h ⊢
  constructor
  · rintro ⟨a, b, hsub, hshare | ⟨hempty, heq⟩⟩
    · have hab : a.span.stop ≤ b.span.start := h hsub
      omega
    · obtain ⟨⟨start, stop, hle⟩, s⟩ := a
      obtain ⟨_, t⟩ := b
      obtain rfl : start = stop := hempty
      subst heq
      exact ⟨start, s, t, hsub⟩
  · rintro ⟨offset, s, t, hsub⟩
    exact ⟨_, _, hsub, .inr ⟨rfl, rfl⟩⟩

/-- Two edits of a call are insertions at one offset. -/
def CallFix.InsertsTwice (fix : CallFix) : Prop :=
  ∃ offset s t, [Edit.insertion offset s, Edit.insertion offset t].Sublist fix.edits

namespace Rule

variable {rule : Rule} {text : String} {call : Call} {calls : List Call} {fix : CallFix}
  {judged : List Verdict}

/-! ## Fixes of one call -/

theorem edits_inSequence (h : rule.fix text call = .ok fix) :
    fix.edits.Pairwise fun a b => a.span.stop ≤ b.span.start := by
  obtain ⟨_, _, _, hsequence, rfl⟩ := fix_eq_ok_iff.1 h
  exact inSequence_iff.1 hsequence

/-- The fixes of a call overlap exactly when two of them are insertions at one offset. -/
theorem insertsTwice_iff (h : rule.fix text call = .ok fix) :
    fix.InsertsTwice ↔ ¬ fix.edits.Pairwise fun a b => ¬ a.span.Overlaps b.span :=
  (Edit.not_pairwise_iff (edits_inSequence h)).symm

/-! ## Fixes of a file -/

/-- Accepted edits overlap exactly when some accepted call inserts twice at one place. -/
theorem not_pairwise_contributions_iff (h : rule.verdicts text calls = .ok judged) :
    (¬ (judged.flatMap Verdict.contribution).Pairwise fun a b => ¬ a.span.Overlaps b.span) ↔
      ∃ v ∈ judged, v.Accepted ∧ v.fix.InsertsTwice := by
  rw [pairwise_contributions_iff h]
  simp only [not_forall, exists_prop]
  refine exists_congr fun v => and_congr_right fun hv => and_congr_right fun _ => ?_
  exact (insertsTwice_iff (fix_of_mem_verdicts h hv)).symm

/-- A file without broken promises is refused for what its accepted edits are refused for. -/
theorem fixFile_eq_error_iff (h : rule.verdicts text calls = .ok judged) {error : EditError} :
    rule.fixFile text calls = .error (.edit error) ↔
      (Edit.normalize text (judged.flatMap Verdict.contribution)).mapError Edit.Refusal.error
        = .error error := by
  rw [fixFile_eq h]
  cases Edit.normalize text (judged.flatMap Verdict.contribution) with
  | ok edits => exact ⟨nofun, nofun⟩
  | error refusal =>
    show Except.error (FileError.edit refusal.error) = .error (.edit error) ↔
      Except.error refusal.error = .error error
    simp

/-- **How the fixes of a file are refused.** They are refused for an overlap exactly when all of
them fit the text and an accepted call has two insertions at one offset among its fixes. They are
refused for nothing else but a fix that does not fit the text. -/
theorem fixFile_overlapping_iff (rule : Rule) (text : String) (calls : List Call) :
    ((∃ first second, rule.fixFile text calls = .error (.edit (.overlapping first second))) ↔
      ∃ judged, rule.verdicts text calls = .ok judged ∧
        (∀ v ∈ judged, v.Accepted → ∀ e ∈ v.fix.edits, e.span.Fits text.toList) ∧
        ∃ v ∈ judged, v.Accepted ∧ v.fix.InsertsTwice) ∧
    ∀ error, rule.fixFile text calls = .error (.edit error) →
      (∃ first second, error = .overlapping first second) ∨
        ∃ judged, rule.verdicts text calls = .ok judged ∧
          ∃ v ∈ judged, v.Accepted ∧ ∃ e ∈ v.fix.edits, Edit.Misfits text.toList e error := by
  cases hjudged : rule.verdicts text calls with
  | error fault =>
    rw [fixFile_of_fault (verdicts_eq_error_iff.1 hjudged)]
    exact ⟨⟨nofun, nofun⟩, nofun⟩
  | ok judged =>
    have hmem : ∀ e, e ∈ judged.flatMap Verdict.contribution ↔
        ∃ v ∈ judged, v.Accepted ∧ e ∈ v.fix.edits := fun _ => Verdict.mem_flatMap_contribution
    refine ⟨?_, fun error herror => ?_⟩
    · simp only [fixFile_eq_error_iff hjudged]
      rw [Edit.exists_overlapping_iff, not_pairwise_contributions_iff hjudged]
      constructor
      · rintro ⟨hfits, htwice⟩
        exact ⟨judged, rfl, fun v hv haccepted e he =>
          hfits e ((hmem e).2 ⟨v, hv, haccepted, he⟩), htwice⟩
      · rintro ⟨_, ⟨⟩, hfits, htwice⟩
        refine ⟨fun e he => ?_, htwice⟩
        obtain ⟨v, hv, haccepted, he⟩ := (hmem e).1 he
        exact hfits v hv haccepted e he
    · obtain ⟨e, he, hmisfit⟩ | hover := Edit.misfits_or_overlapping
        ((fixFile_eq_error_iff hjudged).1 herror)
      · obtain ⟨v, hv, haccepted, he⟩ := (hmem e).1 he
        exact .inr ⟨judged, rfl, v, hv, haccepted, e, he, hmisfit⟩
      · exact .inl hover

/-- Calls of methods of `T` are named `k` and move to `U`. -/
def renameAndRetarget : Rule :=
  { rotateToU with arguments := [], rename? := some "k" }

/-- The call `(1)`, whose name is not written in the text. -/
def namelessCall : Call where
  span := ⟨0, 3, by decide⟩
  callee := .bare ⟨"f", .point 0⟩
  arguments := [.literal ⟨1, 2, by decide⟩ (some "int") (.int 1)]
  owner := some "T"
  method := none

/-- The new name and the receiver in front of it are both inserted where the call starts. Both fit
the text, they pass the check of the call, and the file is refused for their overlap. -/
theorem fixFile_namelessCall :
    (∃ fix, renameAndRetarget.fix? "(1)" namelessCall = .ok (some fix) ∧
      fix.edits = [.insertion 0 "k", .insertion 0 "U."] ∧
      ∀ e ∈ fix.edits, e.span.Fits "(1)".toList) ∧
    renameAndRetarget.fixFile "(1)" [namelessCall]
      = .error (.edit (.overlapping (.point 0) (.point 0))) :=
  ⟨⟨_, rfl, rfl, by decide⟩, rfl⟩

end Rule

end CallRefactor
