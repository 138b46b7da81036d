import CallRefactor.Proofs.Edit.Splice

/-!
# What carrying out edits backwards comes to

Edits that were joined are carried out from the last to the first, on a text that changes while
their offsets stay those of the text before any edit. When the turn of an edit comes, the text still
begins with all that stood in front of the edits behind it, so the edit fits the changed text as it
fitted the text before. What comes out in the end is what a reader gets who goes through the text
from left to right with the edits as they were given: all that stands between two edits is kept, and
what stands under an edit is replaced.

Main statements: `fits_substituteAll`, `becomes_splice` and `applyAll_becomes`.
-/

namespace CallRefactor.Edit

variable {text : List Char} {a b : Nat} {e : Edit} {edits earlier later : List Edit}

/-! ## Edits on a changed text -/

theorem Within.of_append (h : Within text a (earlier ++ edits) b) : ∃ m, Within text m edits b := by
  induction earlier generalizing a with
  | nil => exact ⟨a, h⟩
  | cons x earlier ih => exact ih h.tail

/-- An edit fits the text on which the edits behind it have been carried out. -/
theorem fits_substituteAll (h : Within text a (e :: later) (Text.byteLength text)) :
    e.span.Fits (substituteAll later text) := by
  obtain ⟨hstart, hstop⟩ := h.fits e List.mem_cons_self
  rw [substituteAll_eq_append h.tail]
  exact ⟨Text.isBoundary_between_append hstart hstop e.span.start_le_stop _,
    Text.isBoundary_between_append hstop hstop (Nat.le_refl _) _⟩

/-! ## From left to right -/

/-- What becomes of a text, which begins at an offset, under edits from left to right. -/
inductive Becomes : Nat → List Char → List Edit → List Char → Prop where
  /-- Behind the last edit all is kept. -/
  | rest (offset : Nat) (cs : List Char) : Becomes offset cs [] cs
  /-- What stands in front of an edit is kept, and what stands under it is replaced. -/
  | edit {offset : Nat} {kept lost cs out : List Char} {e : Edit} {edits : List Edit}
    (hkept : offset + Text.byteLength kept = e.span.start)
    (hlost : e.span.start + Text.byteLength lost = e.span.stop)
    (h : Becomes e.span.stop cs edits out) :
    Becomes offset (kept ++ (lost ++ cs)) (e :: edits) (kept ++ (e.replacement.toList ++ out))

/-- A text becomes the splice of the edits. -/
theorem becomes_splice (h : Within text a edits b) :
    Becomes a (Text.between a b text) edits (splice text a edits b) := by
  induction edits generalizing a with
  | nil => exact .rest a _
  | cons e edits ih =>
    obtain ⟨hstart, hstop⟩ := h.fits e List.mem_cons_self
    have ha := h.from_start e List.mem_cons_self
    have hb := h.to_stop e List.mem_cons_self
    have hle := e.span.start_le_stop
    have hkept := Text.byteLength_between h.start hstart ha
    have hlost := Text.byteLength_between hstart hstop hle
    rw [← Text.between_append_between h.start hstart h.stop ha (by omega),
      ← Text.between_append_between hstart hstop h.stop hle hb]
    exact .edit (by omega) (by omega) (ih h.tail)

/-- **Carrying out edits comes to what they say, read from left to right.** When a list of edits is
accepted, each edit of the normal form fits the text as the edits behind it have left it, so none is
skipped. The text that comes out is made of what stands between the sorted edits and of their
replacements; all that no edit covers is kept, in its place. -/
theorem applyAll_becomes {text : String} {normal : List Edit}
    (h : normalize text edits = .ok normal) :
    (∀ earlier e later, normal = earlier ++ e :: later →
        e.span.Fits (substituteAll later text.toList)) ∧
      ∃ out, applyAll text edits = .ok out ∧
        out.toList = splice text.toList 0 (sort edits) (Text.byteLength text.toList) ∧
        Becomes 0 text.toList (sort edits) out.toList := by
  obtain ⟨happ, rfl⟩ := normalize_eq_ok_iff.1 h
  have hwithin := happ.within_text
  refine ⟨fun earlier e later hsplit => ?_, _, applyAll_eq_ok_iff.2 ⟨happ, rfl⟩, ?_⟩
  · have hnormal := (splice_coalesce hwithin).1
    rw [hsplit] at hnormal
    obtain ⟨m, hm⟩ := hnormal.of_append
    exact fits_substituteAll hm
  · have hbecomes := becomes_splice hwithin
    rw [Text.between_zero_byteLength] at hbecomes
    rw [String.toList_ofList]
    exact ⟨rfl, hbecomes⟩

/-- A chain of edits that touch, on both sides of a character of two bytes. -/
theorem applyAll_becomes_chain :
    ∃ out, applyAll "xéyz" [⟨⟨3, 4, by decide⟩, "Y"⟩, insertion 3 "ü", ⟨⟨0, 1, by decide⟩, ""⟩]
        = .ok out ∧
      Becomes 0 ['x', 'é', 'y', 'z'] [⟨⟨0, 1, by decide⟩, ""⟩, insertion 3 "ü",
        ⟨⟨3, 4, by decide⟩, "Y"⟩] out.toList := by
  have hnormal : normalize "xéyz" [⟨⟨3, 4, by decide⟩, "Y"⟩, insertion 3 "ü",
      ⟨⟨0, 1, by decide⟩, ""⟩] = .ok [⟨⟨0, 1, by decide⟩, ""⟩, ⟨⟨3, 4, by decide⟩, "üY"⟩] := rfl
  obtain ⟨_, out, hout, _, hbecomes⟩ := applyAll_becomes hnormal
  exact ⟨out, hout, hbecomes⟩

end CallRefactor.Edit
