import CallRefactor.Proofs.Fix.Verdict
import CallRefactor.Proofs.Span.Groups
import Mathlib.Data.List.Perm.Basic

/-!
# Calls visited in another order, and once more

Of two calls that collide the one that is visited first wins, so what becomes of a file can depend
on the order of the visits. Without collisions it does not: calls that are all accepted in one order
are accepted in every order, and since no edit of one call has the span of an edit of another one,
sorting puts their edits into the same list, faults of the list included.

To visit a call once more has no effect on the edits. If it was accepted it collides with itself,
and if it was dropped what it collided with is still there.

Main statements: `fixFile_of_perm` and `fixFile_append_of_subset`.
-/

namespace CallRefactor

namespace Verdict

variable {u v : Verdict}

/-- Every edit overlaps itself, so calls with the same edits collide. -/
theorem collides_of_eq (h : u.fix = v.fix) (hne : v.fix.edits ≠ []) : u.Collides v := by
  obtain ⟨e, he⟩ := List.exists_mem_of_ne_nil _ hne
  exact ⟨e, h ▸ he, e, he, Span.overlaps_self e.span⟩

theorem contribution_of_accepted (h : v.Accepted) : v.contribution = v.fix.edits := if_pos h

theorem contribution_of_dropped (h : ¬ v.Accepted) : v.contribution = [] := if_neg h

end Verdict

namespace Rule

variable {rule : Rule} {text : String} {calls other again : List Call}
  {judged repeated : List Verdict} {pairs : List (Call × CallFix)} {visit : Visit}

/-! ## Another order -/

/-- All calls are accepted exactly when no two of them collide. -/
theorem forall_accepted_iff (h : rule.verdicts text calls = .ok judged) :
    (∀ v ∈ judged, v.Accepted) ↔ judged.Pairwise fun u v => ¬ u.Collides v := by
  constructor
  · intro hall
    exact (pairwise_not_collides h).imp_of_mem fun hu hv hapart => hapart (hall _ hu) (hall _ hv)
  · intro hapart v hv
    obtain ⟨earlier, later, hsplit⟩ := List.append_of_mem hv
    by_contra hdropped
    obtain ⟨u, hu, _, hcollides⟩ := (not_accepted_iff h hsplit).1 hdropped
    rw [hsplit] at hapart
    exact (List.pairwise_append.1 hapart).2.2 u hu v List.mem_cons_self hcollides

/-- Accepted calls have the verdicts that say so. -/
theorem Visit.verdicts_eq_map (h : ∀ v ∈ visit.verdicts pairs, v.Accepted) :
    visit.verdicts pairs = pairs.map fun p => ⟨p.1, p.2, none⟩ := by
  conv_rhs => rw [← Visit.map_verdicts visit pairs, List.map_map]
  refine (List.map_id _).symm.trans (List.map_congr_left fun v hv => ?_)
  obtain ⟨call, fix, collision?⟩ := v
  obtain rfl : collision? = none := h _ hv
  rfl

/-- Whether calls collide depends on their fixes alone. -/
theorem Visit.pairwise_not_collides_iff (visit : Visit) (pairs : List (Call × CallFix)) :
    ((visit.verdicts pairs).Pairwise fun u v => ¬ u.Collides v) ↔
      pairs.Pairwise fun p q => ∀ a ∈ p.2.edits, ∀ b ∈ q.2.edits, ¬ a.span.Overlaps b.span := by
  conv_rhs => rw [← Visit.map_verdicts visit pairs, List.pairwise_map]
  unfold Verdict.Collides
  push Not
  rfl

theorem selectedFixes_of_perm (hp : calls.Perm other)
    (h : rule.selectedFixes text calls = .ok pairs) :
    ∃ pairs', rule.selectedFixes text other = .ok pairs' ∧ pairs.Perm pairs' := by
  obtain ⟨pairs', hrel, hperm⟩ :=
    List.perm_comp_forall₂ (hp.symm.filter rule.signature.selects) (mapM_eq_ok_iff.1 h)
  exact ⟨pairs', mapM_eq_ok_iff.2 hrel, hperm.symm⟩

/-- Calls that are all accepted get the same verdicts in another order. -/
theorem verdicts_of_perm (hp : calls.Perm other) (h : rule.verdicts text calls = .ok judged)
    (hall : ∀ v ∈ judged, v.Accepted) :
    ∃ judged', rule.verdicts text other = .ok judged' ∧ judged.Perm judged' := by
  obtain ⟨pairs, hpairs, rfl⟩ := map_eq_ok_iff.1 h
  obtain ⟨pairs', hpairs', hperm⟩ := selectedFixes_of_perm hp hpairs
  have h' : rule.verdicts text other = .ok (Visit.verdicts {} pairs') :=
    map_eq_ok_iff.2 ⟨pairs', hpairs', rfl⟩
  have hapart := (Visit.pairwise_not_collides_iff _ _).1 ((forall_accepted_iff h).1 hall)
  have hapart' := hapart.perm hperm fun hpq a ha b hb hab =>
    hpq b hb a ha (Span.overlaps_comm.1 hab)
  have hall' := (forall_accepted_iff h').2 ((Visit.pairwise_not_collides_iff _ _).2 hapart')
  refine ⟨_, h', ?_⟩
  rw [Visit.verdicts_eq_map hall, Visit.verdicts_eq_map hall']
  exact hperm.map _

/-- The edits of calls that do not collide are sorted into the same list in every order. -/
theorem sort_contributions_of_perm {judged' : List Verdict} (hp : judged.Perm judged')
    (hapart : judged.Pairwise fun u v => ¬ u.Collides v) (hall : ∀ v ∈ judged, v.Accepted) :
    Edit.sort (judged.flatMap Verdict.contribution)
      = Edit.sort (judged'.flatMap Verdict.contribution) := by
  refine Span.sortOn_flatMap_of_perm hp (hapart.imp_of_mem fun hu hv hn a ha b hb heq => ?_)
  rw [Verdict.contribution_of_accepted (hall _ hu)] at ha
  rw [Verdict.contribution_of_accepted (hall _ hv)] at hb
  exact hn ⟨a, ha, b, hb, heq ▸ Span.overlaps_self a.span⟩

/-- **Without collisions the order of the visits does not matter.** If the fixes of all selected
calls are accepted, they are so in every other order. The file then has the same edits and as many
selected calls, and its conflicts come in the order of the visits, or it is refused for the same
reason. -/
theorem fixFile_of_perm (hp : calls.Perm other) (h : rule.verdicts text calls = .ok judged)
    (hall : ∀ v ∈ judged, v.Accepted) :
    (∃ judged', rule.verdicts text other = .ok judged' ∧ ∀ v ∈ judged', v.Accepted) ∧
      ((∃ file conflicts, rule.fixFile text calls = .ok file ∧
          rule.fixFile text other = .ok { file with conflicts } ∧
          conflicts.Perm file.conflicts) ∨
        ∃ error, rule.fixFile text calls = .error (.edit error) ∧
          rule.fixFile text other = .error (.edit error)) := by
  obtain ⟨judged', h', hperm⟩ := verdicts_of_perm hp h hall
  have hsort := sort_contributions_of_perm hperm ((forall_accepted_iff h).1 hall) hall
  have hnormal : Edit.normalize text (judged.flatMap Verdict.contribution)
      = Edit.normalize text (judged'.flatMap Verdict.contribution) := by
    unfold Edit.normalize
    rw [hsort]
  refine ⟨⟨judged', h', fun v hv => hall v (hperm.mem_iff.2 hv)⟩, ?_⟩
  rw [fixFile_eq h, fixFile_eq h', ← hnormal, ← hperm.length_eq]
  cases Edit.normalize text (judged.flatMap Verdict.contribution) with
  | ok edits =>
    exact .inl ⟨⟨edits, judged.flatMap Verdict.conflicts, judged.length⟩,
      judged'.flatMap Verdict.conflicts, rfl, rfl, (hperm.flatMap_right _).symm⟩
  | error refusal => exact .inr ⟨refusal.error, rfl, rfl⟩

/-- The nested call of `f(g(1), h)` only gets a receiver, in front of the text that the call around
it replaces, so it can be visited first. -/
theorem fixFile_of_perm_rotateToU :
    ∃ file conflicts, rotateToU.fixFile "f(g(1), h)" [outerCall, innerCall] = .ok file ∧
      rotateToU.fixFile "f(g(1), h)" [innerCall, outerCall] = .ok { file with conflicts } ∧
      file.edits = [Edit.insertion 0 "U.", ⟨⟨2, 6, by decide⟩, "U.h"⟩,
        ⟨⟨8, 9, by decide⟩, "g(1)"⟩] := by
  have hfile : rotateToU.fixFile "f(g(1), h)" [outerCall, innerCall] = .ok
      ⟨[Edit.insertion 0 "U.", ⟨⟨2, 6, by decide⟩, "U.h"⟩, ⟨⟨8, 9, by decide⟩, "g(1)"⟩], [], 2⟩ :=
    rfl
  have hjudged : rotateToU.verdicts "f(g(1), h)" [outerCall, innerCall] = .ok
      [⟨outerCall, ⟨outerCall.span, [Edit.insertion 0 "U.", ⟨⟨2, 6, by decide⟩, "h"⟩,
          ⟨⟨8, 9, by decide⟩, "g(1)"⟩], []⟩, none⟩,
        ⟨innerCall, ⟨innerCall.span, [Edit.insertion 2 "U."], []⟩, none⟩] := by rfl
  have hall := fixFile_of_perm (.swap innerCall outerCall []) hjudged (by simp [Verdict.Accepted])
  rcases hall.2 with ⟨file, conflicts, hok, hother, _⟩ | ⟨error, herror, _⟩
  · obtain rfl := Except.ok.inj (hfile.symm.trans hok)
    exact ⟨_, conflicts, hok, hother, rfl⟩
  · cases hfile.symm.trans herror

/-! ## Once more -/

/-- Calls visited first get the same verdicts whatever calls come after them. -/
theorem Visit.verdicts_append (visit : Visit) (xs ys : List (Call × CallFix)) :
    visit.verdicts (xs ++ ys)
      = visit.verdicts xs ++ ((xs.map Prod.snd).foldl Visit.add visit).verdicts ys := by
  induction xs generalizing visit with
  | nil => rfl
  | cons p xs ih =>
    rw [List.cons_append, Visit.verdicts, ih]
    rfl

/-- Calls that are visited once more get further verdicts, of calls that have one already. -/
theorem verdicts_append (hsub : again ⊆ calls) (h : rule.verdicts text calls = .ok judged) :
    ∃ repeated, rule.verdicts text (calls ++ again) = .ok (judged ++ repeated) ∧
      ∀ v ∈ repeated, ∃ u ∈ judged, u.call = v.call := by
  have hmem : ∀ c ∈ again.filter rule.signature.selects, ∃ u ∈ judged, u.call = c := by
    intro c hc
    obtain ⟨hagain, hselects⟩ := List.mem_filter.1 hc
    rw [← List.mem_map, map_call_verdicts h]
    exact List.mem_filter.2 ⟨hsub hagain, hselects⟩
  have hfixes : ∀ c ∈ again.filter rule.signature.selects, ∃ fix, rule.fix text c = .ok fix := by
    intro c hc
    obtain ⟨u, hu, rfl⟩ := hmem c hc
    exact ⟨u.fix, fix_of_mem_verdicts h hu⟩
  obtain ⟨more, hmore, hfixmore⟩ := exists_fixes hfixes
  obtain ⟨pairs, hmap, hfix, rfl⟩ := verdicts_eq_ok_iff.1 h
  have happend : rule.verdicts text (calls ++ again) = .ok (Visit.verdicts {} (pairs ++ more)) :=
    verdicts_eq_ok_iff.2 ⟨pairs ++ more, by rw [List.map_append, hmap, hmore, List.filter_append],
      fun p hp => (List.mem_append.1 hp).elim (hfix p) (hfixmore p), rfl⟩
  rw [Visit.verdicts_append] at happend
  refine ⟨_, happend, fun v hv => hmem v.call ?_⟩
  have hcalls := map_call_verdicts happend
  rw [List.map_append, map_call_verdicts h, List.filter_append] at hcalls
  rw [← List.append_cancel_left hcalls]
  exact List.mem_map_of_mem hv

/-- A call that is visited once more contributes nothing. -/
theorem contribution_of_again (h : rule.verdicts text calls = .ok (judged ++ repeated))
    {u v : Verdict} (hu : u ∈ judged) (hv : v ∈ repeated) (hcall : u.call = v.call) :
    v.contribution = [] := by
  obtain ⟨p, q, hrepeated⟩ := List.append_of_mem hv
  have hsplit : judged ++ repeated = (judged ++ p) ++ v :: q := by
    rw [hrepeated, List.append_assoc]
  have hfix : u.fix = v.fix := fix_eq_of_mem_verdicts h (List.mem_append_left _ hu) hcall
    (fix_of_mem_verdicts h (List.mem_append_right _ hv))
  by_cases hedits : v.fix.edits = []
  · unfold Verdict.contribution
    rw [hedits, ite_self]
  refine Verdict.contribution_of_dropped ((not_accepted_iff h hsplit).2 ?_)
  by_cases haccepted : u.Accepted
  · exact ⟨u, List.mem_append_left _ hu, haccepted, Verdict.collides_of_eq hfix hedits⟩
  · -- what the call collided with at first comes before the repetition as well
    obtain ⟨a, b, rfl⟩ := List.append_of_mem hu
    rw [List.append_assoc] at h
    obtain ⟨w, hw, hwaccepted, hcollides⟩ := (not_accepted_iff h rfl).1 haccepted
    refine ⟨w, List.mem_append_left _ (List.mem_append_left _ hw), hwaccepted, ?_⟩
    unfold Verdict.Collides at hcollides ⊢
    rwa [← hfix]

theorem selectedFixes_append_of_fault {fault : Fault}
    (h : rule.selectedFixes text calls = .error fault) (again : List Call) :
    rule.selectedFixes text (calls ++ again) = .error fault := by
  unfold selectedFixes at h ⊢
  rw [List.filter_append, List.mapM_append, h]
  rfl

/-- **To visit calls once more has no effect.** When calls of the file are given again behind all of
them, in any number and order, the file has the same edits as without them or is refused for the
same reason. -/
theorem fixFile_append_of_subset (rule : Rule) (text : String) (hsub : again ⊆ calls) :
    (rule.fixFile text (calls ++ again)).map FileFix.edits
      = (rule.fixFile text calls).map FileFix.edits := by
  cases hselected : rule.selectedFixes text calls with
  | error fault =>
    rw [fixFile_of_fault hselected,
      fixFile_of_fault (selectedFixes_append_of_fault hselected again)]
  | ok pairs =>
    have h : rule.verdicts text calls = .ok (Visit.verdicts {} pairs) :=
      map_eq_ok_iff.2 ⟨pairs, hselected, rfl⟩
    obtain ⟨repeated, hrepeated, hcalls⟩ := verdicts_append hsub h
    have hnothing : repeated.flatMap Verdict.contribution = [] := by
      refine List.flatMap_eq_nil_iff.2 fun v hv => ?_
      obtain ⟨u, hu, hcall⟩ := hcalls v hv
      exact contribution_of_again hrepeated hu hv hcall
    have hsame : (Visit.verdicts {} pairs ++ repeated).flatMap Verdict.contribution
        = (Visit.verdicts {} pairs).flatMap Verdict.contribution := by
      rw [List.flatMap_append, hnothing, List.append_nil]
    rw [fixFile_eq h, fixFile_eq hrepeated, hsame]
    cases Edit.normalize text ((Visit.verdicts {} pairs).flatMap Verdict.contribution) <;> rfl

/-- The inner call of `f(g(1), h)` is dropped again, and the outer one collides with itself. -/
theorem fixFile_append_of_subset_rotateAsK :
    (rotateAsK.fixFile "f(g(1), h)" ([outerCall, innerCall] ++ [innerCall, outerCall])).map
      FileFix.edits = .ok [⟨⟨0, 1, by decide⟩, "k"⟩, ⟨⟨2, 6, by decide⟩, "h"⟩,
        ⟨⟨8, 9, by decide⟩, "g(1)"⟩] :=
  (fixFile_append_of_subset rotateAsK "f(g(1), h)" (by simp)).trans rfl

end Rule

end CallRefactor
