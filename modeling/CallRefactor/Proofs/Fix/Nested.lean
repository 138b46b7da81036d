import CallRefactor.Proofs.Fix.Verdict

/-!
# Calls inside replaced text

When a rule replaces an argument of one call, a call nested in that argument should not contribute
edits of its own, since the argument has been written out with or without them already. Overlap
alone does not give that. It keeps the two calls apart except in one case: all that is edited of the
nested call is that a receiver is inserted in front of its name, and its name is the first thing in
the replaced text. Then the insertion only touches the replacement, and both calls are accepted.

Main statements: `fixFile_of_wellFormed`, well-formed calls of a file can always be fixed, and
`excludes_iff`, when a call and one inside its replaced text keep each other out.
-/

namespace CallRefactor

variable {rule : Rule} {text : String} {calls : List Call} {judged : List Verdict}

/-! ## Edits inside a replaced span -/

/-- Every part of a nested call is text that an edit around the call replaces. -/
theorem Call.WellFormed.bounds_of_contains {call : Call} {outer s : Span}
    (h : call.WellFormed text) (hinside : outer.Contains call.span) (hs : s ∈ call.slots) :
    outer.start ≤ s.start ∧ s.start < s.stop ∧ s.stop ≤ outer.stop := by
  obtain ⟨hstart, hstop⟩ := h.inside s hs
  obtain ⟨hstart', hstop'⟩ := hinside
  have hle := s.start_le_stop
  have hne : s.start ≠ s.stop := h.nonempty s hs
  omega

/-- A place of a nested call that is left alone by an edit around the whole call is where its name
starts, and there the edit starts too. -/
theorem Call.WellFormed.eq_point_of_contains {call : Call} {outer s : Span}
    (h : call.WellFormed text) (hinside : outer.Contains call.span) (hs : s ∈ call.anchors)
    (hn : ¬ outer.Overlaps s) : s = .point outer.start := by
  rcases mem_anchors hs with hslot | rfl
  · exfalso
    obtain ⟨hstart, hlt, hstop⟩ := h.bounds_of_contains hinside hslot
    exact hn (.inl ⟨by omega, by omega⟩)
  · obtain ⟨hstart, hlt, hstop⟩ := h.bounds_of_contains hinside call.name_mem_slots
    rcases Nat.lt_or_eq_of_le hstart with hstrict | heq
    · -- an insertion strictly inside the replaced text would overlap it
      exfalso
      exact hn (.inl ⟨hstrict, Nat.lt_of_lt_of_le hlt hstop⟩)
    · rw [heq]

namespace Rule

/-- Of a nested call that an edit around it leaves alone, at most one edit is left: an insertion
where that edit starts. -/
theorem edits_eq_insertion {call : Call} {fix : CallFix} {outer : Span}
    (h : call.WellFormed text) (hfix : rule.fix text call = .ok fix)
    (hinside : outer.Contains call.span) (hne : fix.edits ≠ [])
    (hn : ∀ e ∈ fix.edits, ¬ outer.Overlaps e.span) :
    ∃ s, fix.edits = [Edit.insertion outer.start s] := by
  obtain ⟨hanchors, hprec⟩ := edits_of_fix h hfix
  have hspan : ∀ e ∈ fix.edits, e.span = .point outer.start := fun e he =>
    h.eq_point_of_contains hinside (hanchors e he) (hn e he)
  rcases hedits : fix.edits with _ | ⟨e, rest⟩
  · exact absurd hedits hne
  · rw [hedits] at hprec hspan
    have he := hspan e List.mem_cons_self
    rcases rest with _ | ⟨e', rest⟩
    · exact ⟨e.replacement, by rw [Edit.insertion, ← he]⟩
    · -- two insertions at one offset would overlap
      have he' := hspan e' (List.mem_cons_of_mem _ List.mem_cons_self)
      have hlt := (List.pairwise_cons.1 hprec).1 e' List.mem_cons_self
      exact absurd (he.trans he'.symm) hlt.2

/-! ## Well-formed calls -/

/-- The accepted edits of well-formed calls can be carried out together. -/
theorem applicable_contributions (hcalls : ∀ c ∈ calls, c.WellFormed text)
    (h : rule.verdicts text calls = .ok judged) :
    Edit.Applicable text.toList (judged.flatMap Verdict.contribution) := by
  have hwell : ∀ v ∈ judged, v.call.WellFormed text := fun v hv =>
    hcalls _ (call_mem_of_mem_verdicts h hv).1
  have hedits := fun v hv => edits_of_fix (hwell v hv) (fix_of_mem_verdicts h hv)
  refine ⟨fun e he => ?_, (pairwise_contributions_iff h).2 fun v hv _ => ?_⟩
  · obtain ⟨v, hv, _, he⟩ := Verdict.mem_flatMap_contribution.1 he
    exact (hwell v hv).anchors_fits _ ((hedits v hv).1 e he)
  · exact (hedits v hv).2.imp Span.Precedes.not_overlaps

/-- **Well-formed calls of a file can always be fixed.** -/
theorem fixFile_of_wellFormed (rule : Rule) (hcalls : ∀ c ∈ calls, c.WellFormed text) :
    ∃ judged file, rule.verdicts text calls = .ok judged ∧ rule.fixFile text calls = .ok file := by
  have hselected : ∀ c ∈ calls.filter rule.signature.selects,
      ∃ fix, rule.fix text c = .ok fix := by
    intro c hc
    obtain ⟨fix, _, hfix, _, _⟩ := fix_eq_ok rule (hcalls c (List.mem_filter.1 hc).1)
    exact ⟨fix, hfix⟩
  obtain ⟨pairs, hmap, hfix⟩ := exists_fixes hselected
  have hjudged : rule.verdicts text calls = .ok (Visit.verdicts {} pairs) :=
    verdicts_eq_ok_iff.2 ⟨pairs, hmap, hfix, rfl⟩
  have hnormal := Edit.normalize_eq_ok_iff.2 ⟨applicable_contributions hcalls hjudged, rfl⟩
  exact ⟨_, ⟨_, _, _⟩, hjudged, fixFile_eq_ok_iff.2 ⟨_, hjudged, hnormal, rfl, rfl⟩⟩

/-! ## Calls that keep each other out -/

/-- Two calls exclude each other under a rule when no file gets edits of both: whatever its calls
are and in which order they come, one of the two is dropped and reported. -/
def Excludes (rule : Rule) (text : String) (a b : Call) : Prop :=
  ∀ calls : List Call, (∀ c ∈ calls, c.WellFormed text) →
    ∃ judged file, rule.verdicts text calls = .ok judged ∧ rule.fixFile text calls = .ok file ∧
      Edit.normalize text (judged.flatMap Verdict.contribution) = .ok file.edits ∧
      ∀ (i j : Nat) (u v : Verdict), judged[i]? = some u → judged[j]? = some v → i ≠ j →
        u.call = a → v.call = b →
        ∃ dropped ∈ [u, v], ¬ dropped.Accepted ∧
          ∃ s, .unsupported dropped.call.span (.overlapsFix s) ∈ file.conflicts

/-- A dropped call is reported. -/
theorem exists_overlapsFix {v : Verdict} (hv : v ∈ judged) (hdropped : ¬ v.Accepted) :
    ∃ s, .unsupported v.call.span (.overlapsFix s) ∈ judged.flatMap Verdict.conflicts := by
  obtain ⟨s, hs⟩ := Option.ne_none_iff_exists'.1 hdropped
  refine ⟨s, List.mem_flatMap.2 ⟨v, hv, ?_⟩⟩
  unfold Verdict.conflicts
  rw [hs]
  exact List.mem_append_right _ List.mem_cons_self

/-- Accepted calls at different positions do not collide. -/
theorem not_collides_of_ne (h : rule.verdicts text calls = .ok judged) {i j : Nat} {u v : Verdict}
    (hi : judged[i]? = some u) (hj : judged[j]? = some v) (hij : i ≠ j) (hu : u.Accepted)
    (hv : v.Accepted) : ¬ u.Collides v := by
  obtain ⟨hi', rfl⟩ := List.getElem?_eq_some_iff.1 hi
  obtain ⟨hj', rfl⟩ := List.getElem?_eq_some_iff.1 hj
  have hapart := List.pairwise_iff_getElem.1 (pairwise_not_collides h)
  rcases Nat.lt_or_gt_of_ne hij with hlt | hgt
  · exact hapart i j hi' hj' hlt hu hv
  · rintro ⟨a, ha, b, hb, hab⟩
    exact hapart j i hj' hi' hgt hv hu ⟨b, hb, a, ha, Span.overlaps_comm.1 hab⟩

/-- The fix of a nested call slips in beside an edit around the call: it only inserts something
where that edit starts, and the other fix inserts nothing there. -/
def SlipsIn (nested other : CallFix) (e : Edit) : Prop :=
  (∃ s, nested.edits = [Edit.insertion e.span.start s]) ∧
    ∀ a ∈ other.edits, a.span ≠ .point e.span.start

variable {a b : Call} {fixA fixB : CallFix} {e : Edit}

/-- A fix that slips in overlaps no edit of the other one. -/
theorem SlipsIn.not_overlaps (h : SlipsIn fixB fixA e) (he : e ∈ fixA.edits)
    (hprec : fixA.edits.Pairwise fun a b => a.span.Precedes b.span) :
    ∀ x ∈ fixA.edits, ∀ y ∈ fixB.edits, ¬ x.span.Overlaps y.span := by
  obtain ⟨⟨s, hinsertion⟩, hfree⟩ := h
  intro x hx y hy
  rw [hinsertion] at hy
  obtain rfl := List.mem_singleton.1 hy
  rintro (⟨hlt, hgt⟩ | ⟨_, hsame⟩)
  · -- the offset of the insertion would lie strictly inside an edit other than the one around
    change x.span.start < e.span.start at hlt
    change e.span.start < x.span.stop at hgt
    rcases Span.eq_or_precedes_of_mem hprec hx he with rfl | hxe | hex
    · omega
    · have hstop := hxe.stop_le
      omega
    · have hstop := hex.stop_le
      have hle := e.span.start_le_stop
      omega
  · exact hfree x hx hsame

/-- Unless its fix slips in, a call inside the replaced text of another one and that call exclude
each other. -/
theorem excludes_of_not_slipsIn (hb : b.WellFormed text) (hfixA : rule.fix text a = .ok fixA)
    (hfixB : rule.fix text b = .ok fixB) (hne : fixB.edits ≠ []) (he : e ∈ fixA.edits)
    (hinside : e.span.Contains b.span) (hslips : ¬ SlipsIn fixB fixA e) :
    rule.Excludes text a b := by
  intro calls hcalls
  obtain ⟨judged, file, hjudged, hfile⟩ := fixFile_of_wellFormed rule hcalls
  obtain ⟨judged', hjudged', hnormal, hconflicts, _⟩ := fixFile_eq_ok_iff.1 hfile
  obtain rfl := Except.ok.inj (hjudged'.symm.trans hjudged)
  refine ⟨judged', file, hjudged, hfile, hnormal, fun i j u v hi hj hij hua hvb => ?_⟩
  have hu := List.mem_of_getElem? hi
  have hv := List.mem_of_getElem? hj
  rw [hconflicts]
  by_cases haccepted : u.Accepted
  · by_cases haccepted' : v.Accepted
    · -- with both accepted nothing overlaps, so only the insertion is left of the nested call
      exfalso
      have hapart := not_collides_of_ne hjudged hi hj hij haccepted haccepted'
      obtain rfl := fix_eq_of_mem_verdicts hjudged hu hua hfixA
      obtain rfl := fix_eq_of_mem_verdicts hjudged hv hvb hfixB
      have hclear : ∀ y ∈ v.fix.edits, ¬ e.span.Overlaps y.span := fun y hy hover =>
        hapart ⟨e, he, y, hy, hover⟩
      obtain ⟨s, hinsertion⟩ := edits_eq_insertion hb hfixB hinside hne hclear
      refine hslips ⟨⟨s, hinsertion⟩, fun x hx hpoint => ?_⟩
      refine hapart ⟨x, hx, Edit.insertion e.span.start s, ?_, .inr ⟨?_, hpoint⟩⟩
      · rw [hinsertion]
        exact List.mem_cons_self
      · rw [hpoint]
        exact rfl
    · exact ⟨v, by simp, haccepted', exists_overlapsFix hv haccepted'⟩
  · exact ⟨u, by simp, haccepted, exists_overlapsFix hu haccepted⟩

/-- If its fix slips in, a file of the two calls alone gets the edits of both. -/
theorem not_excludes_of_slipsIn (ha : a.WellFormed text) (hb : b.WellFormed text)
    (hselectsA : rule.signature.selects a = true) (hselectsB : rule.signature.selects b = true)
    (hfixA : rule.fix text a = .ok fixA) (hfixB : rule.fix text b = .ok fixB)
    (he : e ∈ fixA.edits) (hslips : SlipsIn fixB fixA e) : ¬ rule.Excludes text a b := by
  intro hexcludes
  obtain ⟨judged, file, hjudged, _, _, hall⟩ :=
    hexcludes [a, b] (List.forall_mem_cons.2 ⟨ha, List.forall_mem_cons.2 ⟨hb, nofun⟩⟩)
  have hmap := map_call_verdicts hjudged
  rw [List.filter_cons_of_pos hselectsA, List.filter_cons_of_pos hselectsB] at hmap
  obtain ⟨u, rest, rfl, rfl, hrest⟩ := List.map_eq_cons_iff.1 hmap
  obtain ⟨v, rest, rfl, rfl, hnil⟩ := List.map_eq_cons_iff.1 hrest
  obtain rfl := List.map_eq_nil_iff.1 hnil
  obtain ⟨dropped, hmem, hdropped, _⟩ := hall 0 1 u v rfl rfl (by decide) rfl rfl
  rcases List.mem_cons.1 hmem with rfl | hmem
  · -- nothing comes before the first call
    have hsplit : [dropped, v] = [] ++ dropped :: [v] := rfl
    obtain ⟨_, hnone, _⟩ := (not_accepted_iff hjudged hsplit).1 hdropped
    cases hnone
  · obtain rfl := List.mem_singleton.1 hmem
    have hsplit : [u, dropped] = [u] ++ dropped :: [] := rfl
    obtain ⟨w, hw, _, x, hx, y, hy, hover⟩ := (not_accepted_iff hjudged hsplit).1 hdropped
    obtain rfl := List.mem_singleton.1 hw
    have hmem : dropped ∈ [w, dropped] := List.mem_cons_of_mem _ List.mem_cons_self
    obtain rfl := fix_eq_of_mem_verdicts hjudged List.mem_cons_self rfl hfixA
    obtain rfl := fix_eq_of_mem_verdicts hjudged hmem rfl hfixB
    exact hslips.not_overlaps he (edits_of_fix ha hfixA).2 x hx y hy hover

/-- **Calls inside replaced text.** A call inside the replaced text of another one and that call
exclude each other, except when the fix of the nested call slips in beside the replacement. -/
theorem excludes_iff (ha : a.WellFormed text) (hb : b.WellFormed text)
    (hselectsA : rule.signature.selects a = true) (hselectsB : rule.signature.selects b = true)
    (hfixA : rule.fix text a = .ok fixA) (hfixB : rule.fix text b = .ok fixB)
    (hne : fixB.edits ≠ []) (he : e ∈ fixA.edits) (hinside : e.span.Contains b.span) :
    rule.Excludes text a b ↔ ¬ SlipsIn fixB fixA e := by
  constructor
  · intro hexcludes hslips
    exact not_excludes_of_slipsIn ha hb hselectsA hselectsB hfixA hfixB he hslips hexcludes
  · intro hslips
    exact excludes_of_not_slipsIn hb hfixA hfixB hne he hinside hslips

theorem excludes_rotateAsK : rotateAsK.Excludes "f(g(1), h)" outerCall innerCall := by
  have hfixA : rotateAsK.fix "f(g(1), h)" outerCall = .ok ⟨outerCall.span,
      [⟨⟨0, 1, by decide⟩, "k"⟩, ⟨⟨2, 6, by decide⟩, "h"⟩, ⟨⟨8, 9, by decide⟩, "g(1)"⟩], []⟩ := by
    rfl
  have hfixB : rotateAsK.fix "f(g(1), h)" innerCall = .ok ⟨innerCall.span,
      [⟨⟨2, 3, by decide⟩, "k"⟩], []⟩ := by rfl
  refine (excludes_iff (by decide +kernel) (by decide +kernel) (by decide +kernel)
    (by decide +kernel) hfixA hfixB (by decide)
    (List.mem_cons_of_mem _ List.mem_cons_self) (by decide)).2 ?_
  rintro ⟨⟨s, hs⟩, _⟩
  -- the new name of the inner call replaces the old one
  cases hs

/-- A call inside an argument and the call around it both contribute when the argument moves and the
nested call only gets a receiver. The receiver ends up at the argument that moved in. -/
theorem not_excludes_rotateToU :
    outerCall.WellFormed "f(g(1), h)" ∧ innerCall.WellFormed "f(g(1), h)" ∧
      rotateToU.signature.selects outerCall = true ∧
      rotateToU.signature.selects innerCall = true ∧
      (∃ fixA fixB e, rotateToU.fix "f(g(1), h)" outerCall = .ok fixA ∧
        rotateToU.fix "f(g(1), h)" innerCall = .ok fixB ∧ fixB.edits ≠ [] ∧ e ∈ fixA.edits ∧
        ¬ e.span.IsEmpty ∧ e.span.Contains innerCall.span) ∧
      ¬ rotateToU.Excludes "f(g(1), h)" outerCall innerCall ∧
      ∃ file, rotateToU.fixFile "f(g(1), h)" [outerCall, innerCall] = .ok file ∧
        file.conflicts = [] ∧
        Edit.applyAll "f(g(1), h)" file.edits = .ok "U.f(U.h, g(1))" := by
  have hA : outerCall.WellFormed "f(g(1), h)" := by decide +kernel
  have hB : innerCall.WellFormed "f(g(1), h)" := by decide +kernel
  have hselectsA : rotateToU.signature.selects outerCall = true := by decide +kernel
  have hselectsB : rotateToU.signature.selects innerCall = true := by decide +kernel
  have hfixA : rotateToU.fix "f(g(1), h)" outerCall = .ok ⟨outerCall.span,
      [Edit.insertion 0 "U.", ⟨⟨2, 6, by decide⟩, "h"⟩, ⟨⟨8, 9, by decide⟩, "g(1)"⟩], []⟩ := by
    rfl
  have hfixB : rotateToU.fix "f(g(1), h)" innerCall = .ok ⟨innerCall.span,
      [Edit.insertion 2 "U."], []⟩ := by rfl
  have he : (⟨⟨2, 6, by decide⟩, "h"⟩ : Edit) ∈
      [Edit.insertion 0 "U.", ⟨⟨2, 6, by decide⟩, "h"⟩, ⟨⟨8, 9, by decide⟩, "g(1)"⟩] :=
    List.mem_cons_of_mem _ List.mem_cons_self
  refine ⟨hA, hB, hselectsA, hselectsB,
    ⟨_, _, _, hfixA, hfixB, by decide, he, by decide, by decide⟩,
    not_excludes_of_slipsIn hA hB hselectsA hselectsB hfixA hfixB he ⟨⟨"U.", rfl⟩, by decide⟩,
    _, rfl, rfl, rfl⟩

end Rule

end CallRefactor
