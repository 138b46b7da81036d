import CallRefactor.Proofs.Edit.Applicable
import CallRefactor.Proofs.Span.Stable
import Mathlib.Data.List.Chain

/-!
# Lists of edits that are refused

A list of edits is refused unless every edit stands on boundaries of the text and no two of them
overlap. Only one fault is reported. Misfits come before overlaps, and among faults of one kind the
one that comes first in the sorted list wins. A refused list is left sorted, with all its edits.

Main statements: `normalize_eq_error_iff`, a refusal is the stable sort of the list with its first
fault, and `normalize_accepts_or_refuses`, which lists are refused and how.
-/

namespace CallRefactor.Edit

variable {text : List Char} {edits : List Edit} {error : EditError}

/-! ## Misfits -/

/-- What keeps an edit from fitting a text. Of several reasons the first one in this order counts:
the edit ends beyond the text, it starts inside a character, it ends inside one. -/
inductive Misfits (text : List Char) (e : Edit) : EditError → Prop where
  /-- The edit ends beyond the text. -/
  | outside (h : Text.byteLength text < e.span.stop) :
    Misfits text e (.outOfBounds e.span (Text.byteLength text))
  /-- The edit ends in the text, and its start is no boundary. -/
  | start (hinside : e.span.stop ≤ Text.byteLength text)
    (h : ¬ Text.IsBoundary text e.span.start) : Misfits text e (.offBoundary e.span.start)
  /-- The edit ends in the text and starts at a boundary, and its stop is no boundary. -/
  | stop (hinside : e.span.stop ≤ Text.byteLength text)
    (hstart : Text.IsBoundary text e.span.start) (h : ¬ Text.IsBoundary text e.span.stop) :
    Misfits text e (.offBoundary e.span.stop)

theorem misfit?_eq_some_iff {e : Edit} : misfit? text e = some error ↔ Misfits text e error := by
  unfold misfit?
  constructor
  · intro h
    split at h
    · next hout => exact Option.some.inj h ▸ .outside hout
    · next hin =>
      split at h
      · next hstart => exact Option.some.inj h ▸ .start (Nat.le_of_not_lt hin) hstart
      · next hstart =>
        split at h
        · next hstop =>
          exact Option.some.inj h ▸ .stop (Nat.le_of_not_lt hin) (Decidable.not_not.1 hstart) hstop
        · cases h
  · intro h
    cases h with
    | outside hout => rw [if_pos hout]
    | start hin hstart => rw [if_neg (Nat.not_lt.2 hin), if_pos hstart]
    | stop hin hstart hstop =>
      rw [if_neg (Nat.not_lt.2 hin), if_neg (not_not_intro hstart), if_pos hstop]

theorem Misfits.not_fits {e : Edit} (h : Misfits text e error) : ¬ e.span.Fits text := by
  intro hfits
  rw [← misfit?_eq_none_iff, misfit?_eq_some_iff.2 h] at hfits
  cases hfits

/-! ## The first fault -/

/-- No two neighbours of a list of edits overlap. -/
def NeighboursApart (edits : List Edit) : Prop :=
  edits.IsChain fun a b => ¬ a.span.Overlaps b.span

theorem head?_of_eq_append {before after : List Edit} {a b : Edit} {rest : List Edit}
    (h : b :: rest = before ++ a :: after) : (before ++ [a]).head? = some b := by
  cases before with
  | nil => exact congrArg some (List.cons.inj h).1.symm
  | cons x before => exact congrArg some (List.cons.inj h).1.symm

theorem overlap?_eq_some_iff (h : edits.Pairwise fun a b => a.span ≤ b.span) :
    overlap? edits = some error ↔
      ∃ before a b after, edits = before ++ a :: b :: after ∧ NeighboursApart (before ++ [a]) ∧
        a.span.Overlaps b.span ∧ error = .overlapping a.span b.span := by
  induction edits with
  | nil => simp [overlap?]
  | cons a edits ih =>
    cases edits with
    | nil => simp [overlap?, List.cons_eq_append_iff]
    | cons b rest =>
      obtain ⟨ha, hrest⟩ := List.pairwise_cons.1 h
      have hab := obstructs_iff (ha b List.mem_cons_self)
      rw [overlap?]
      constructor
      · intro hsome
        split at hsome
        · next hobstructs =>
          exact ⟨[], a, b, rest, rfl, List.isChain_singleton a, hab.1 hobstructs,
            (Option.some.inj hsome).symm⟩
        · next hclear =>
          obtain ⟨before, c, d, after, hsplit, hapart, hover, herror⟩ := (ih hrest).1 hsome
          refine ⟨a :: before, c, d, after, by rw [hsplit, List.cons_append], ?_, hover, herror⟩
          refine List.isChain_cons.2 ⟨?_, hapart⟩
          intro x hx hover
          obtain rfl := Option.some.inj ((head?_of_eq_append hsplit).symm.trans hx)
          exact hclear (hab.2 hover)
      · rintro ⟨before, c, d, after, hsplit, hapart, hover, herror⟩
        cases before with
        | nil =>
          obtain ⟨rfl, htail⟩ := List.cons.inj hsplit
          obtain ⟨rfl, _⟩ := List.cons.inj htail
          rw [if_pos (hab.2 hover), herror]
        | cons x before =>
          obtain ⟨rfl, htail⟩ := List.cons.inj hsplit
          obtain ⟨hhead, hapart⟩ := List.isChain_cons.1 hapart
          have hn := hhead b (head?_of_eq_append htail)
          rw [if_neg fun hobstructs => hn (hab.1 hobstructs)]
          exact (ih hrest).2 ⟨before, c, d, after, htail, hapart, hover, herror⟩

/-- The first fault of a sorted list of edits. -/
inductive FirstFault (text : List Char) : List Edit → EditError → Prop where
  /-- An edit does not fit, and all edits in front of it do. -/
  | misfit {before after : List Edit} {e : Edit} {error : EditError}
    (hbefore : ∀ x ∈ before, x.span.Fits text) (h : Misfits text e error) :
    FirstFault text (before ++ e :: after) error
  /-- All edits fit, two neighbours overlap, and no two neighbours in front of them do. -/
  | overlap {before after : List Edit} {a b : Edit}
    (hfits : ∀ x ∈ before ++ a :: b :: after, x.span.Fits text)
    (hbefore : NeighboursApart (before ++ [a])) (h : a.span.Overlaps b.span) :
    FirstFault text (before ++ a :: b :: after) (.overlapping a.span b.span)

theorem fault?_eq_some_iff (h : edits.Pairwise fun a b => a.span ≤ b.span) :
    fault? text edits = some error ↔ FirstFault text edits error := by
  unfold fault?
  rw [Option.or_eq_some_iff]
  constructor
  · rintro (hmisfit | ⟨hfits, hover⟩)
    · obtain ⟨before, e, after, rfl, he, hbefore⟩ := List.findSome?_eq_some_iff.1 hmisfit
      exact .misfit (fun x hx => misfit?_eq_none_iff.1 (hbefore x hx)) (misfit?_eq_some_iff.1 he)
    · obtain ⟨before, a, b, after, rfl, hbefore, hab, rfl⟩ := (overlap?_eq_some_iff h).1 hover
      rw [List.findSome?_eq_none_iff] at hfits
      exact .overlap (fun x hx => misfit?_eq_none_iff.1 (hfits x hx)) hbefore hab
  · intro hfault
    cases hfault with
    | @misfit before after e _ hbefore he =>
      refine .inl (List.findSome?_eq_some_iff.2 ⟨before, e, after, rfl, ?_, ?_⟩)
      · exact misfit?_eq_some_iff.2 he
      · exact fun x hx => misfit?_eq_none_iff.2 (hbefore x hx)
    | @overlap before after a b hfits hbefore hab =>
      refine .inr ⟨List.findSome?_eq_none_iff.2 fun x hx => misfit?_eq_none_iff.2 (hfits x hx), ?_⟩
      exact (overlap?_eq_some_iff h).2 ⟨before, a, b, after, rfl, hbefore, hab, rfl⟩

/-! ## Refusals -/

/-- A refusal is the list sorted, with the first fault of that. -/
theorem normalize_eq_error_iff {text : String} {refusal : Refusal} :
    normalize text edits = .error refusal ↔
      Span.IsStableSort Edit.span edits refusal.sorted ∧
        FirstFault text.toList refusal.sorted refusal.error := by
  obtain ⟨error, sorted⟩ := refusal
  rw [Span.isStableSort_iff]
  unfold normalize
  constructor
  · intro h
    split at h
    · next hfault =>
      cases h
      exact ⟨rfl, (fault?_eq_some_iff (pairwise_le_sort edits)).1 hfault⟩
    · cases h
  · rintro ⟨rfl, hfault⟩
    rw [show fault? text.toList (sort edits) = some error from
      (fault?_eq_some_iff (pairwise_le_sort edits)).2 hfault]
    rfl

/-- Edits are refused for nothing but a misfit of one of them or an overlap. -/
theorem misfits_or_overlapping {text : String}
    (h : (normalize text edits).mapError Refusal.error = .error error) :
    (∃ e ∈ edits, Misfits text.toList e error) ∨
      ∃ first second, error = .overlapping first second := by
  cases hnormal : normalize text edits with
  | ok normal => rw [hnormal] at h; cases h
  | error refusal =>
    rw [hnormal] at h
    obtain rfl := Except.error.inj h
    obtain ⟨hsort, hfault⟩ := normalize_eq_error_iff.1 hnormal
    obtain ⟨error, sorted⟩ := refusal
    cases hfault with
    | misfit _ hmisfit => exact .inl ⟨_, hsort.perm.mem_iff.1 (by simp), hmisfit⟩
    | overlap _ _ _ => exact .inr ⟨_, _, rfl⟩

/-- Edits are refused for an overlap exactly when all of them fit and two of them overlap. -/
theorem exists_overlapping_iff {text : String} :
    (∃ first second,
        (normalize text edits).mapError Refusal.error = .error (.overlapping first second)) ↔
      (∀ e ∈ edits, e.span.Fits text.toList) ∧
        ¬ edits.Pairwise fun a b => ¬ a.span.Overlaps b.span := by
  cases hnormal : normalize text edits with
  | ok normal =>
    have happ := (normalize_eq_ok_iff.1 hnormal).1
    constructor
    · rintro ⟨first, second, h⟩
      cases h
    · rintro ⟨_, hover⟩
      exact absurd happ.apart hover
  | error refusal =>
    obtain ⟨error, sorted⟩ := refusal
    obtain ⟨hsort, hfault⟩ := normalize_eq_error_iff.1 hnormal
    show (∃ first second, Except.error error = .error (.overlapping first second)) ↔ _
    cases hfault with
    | misfit _ hmisfit =>
      constructor
      · rintro ⟨first, second, h⟩
        obtain rfl := Except.error.inj h
        cases hmisfit
      · rintro ⟨hfits, _⟩
        exact absurd (hfits _ (hsort.perm.mem_iff.1 (by simp))) hmisfit.not_fits
    | overlap hfits _ hover =>
      refine ⟨fun _ => ⟨fun e he => hfits e (hsort.perm.mem_iff.2 he), ?_⟩, fun _ => ⟨_, _, rfl⟩⟩
      intro hapart
      have hapart' := hapart.perm hsort.perm.symm fun hn ho => hn (Span.overlaps_comm.1 ho)
      have hpair := (List.pairwise_append.1 hapart').2.1
      exact (List.pairwise_cons.1 hpair).1 _ List.mem_cons_self hover

/-- **Which lists of edits are refused, and how.** A list is accepted exactly when every edit ends
in the text, starts and ends at boundaries, and no two edits overlap. Any other list is left as its
stable sort, and the error is the first fault of that. -/
theorem normalize_accepts_or_refuses (text : String) (edits : List Edit) :
    ((∃ normal, normalize text edits = .ok normal) ↔
      (∀ e ∈ edits, e.span.stop ≤ Text.byteLength text.toList ∧
        Text.IsBoundary text.toList e.span.start ∧ Text.IsBoundary text.toList e.span.stop) ∧
      edits.Pairwise fun a b => ¬ a.span.Overlaps b.span) ∧
    ∀ refusal, normalize text edits = .error refusal ↔
      Span.IsStableSort Edit.span edits refusal.sorted ∧
        FirstFault text.toList refusal.sorted refusal.error := by
  refine ⟨⟨?_, ?_⟩, fun refusal => normalize_eq_error_iff⟩
  · rintro ⟨normal, h⟩
    obtain ⟨happ, _⟩ := normalize_eq_ok_iff.1 h
    refine ⟨fun e he => ?_, happ.apart⟩
    obtain ⟨hstart, hstop⟩ := happ.fits e he
    exact ⟨hstop.le_byteLength, hstart, hstop⟩
  · rintro ⟨hfits, hapart⟩
    have happ : Applicable text.toList edits := ⟨fun e he => (hfits e he).2, hapart⟩
    exact ⟨_, normalize_eq_ok_iff.2 ⟨happ, rfl⟩⟩

/-- Two insertions at one offset are not reported when another edit does not fit. -/
theorem normalize_accepts_or_refuses_misfit :
    normalize "é" [.insertion 1 "c", .insertion 0 "a", .insertion 0 "b"]
      = .error ⟨.offBoundary 1, [.insertion 0 "a", .insertion 0 "b", .insertion 1 "c"]⟩ := by
  refine ((normalize_accepts_or_refuses _ _).2 _).2 ⟨Span.isStableSort_iff.2 (by decide), ?_⟩
  have hbefore : ∀ x ∈ [Edit.insertion 0 "a", .insertion 0 "b"], x.span.Fits ['é'] := by decide
  have hmisfit : Misfits ['é'] (.insertion 1 "c") (.offBoundary 1) :=
    .start (by decide) (by decide)
  exact .misfit hbefore hmisfit

end CallRefactor.Edit
