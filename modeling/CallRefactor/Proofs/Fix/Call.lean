import CallRefactor.Proofs.Fix.Phases

/-!
# Fixes of well-formed calls

At a well-formed call a rule breaks no promise: its edits come in order and leave each other alone,
they stay inside the call, and they can be carried out. What they change is the receiver, the name
and the arguments. Everything around and between these stays as it was.

Main statements: `fix_eq_ok`, the fix of a well-formed call phase by phase, and
`fix?_of_wellFormed`, which gathers what the host can rely on.
-/

namespace CallRefactor

variable {rule : Rule} {text : String} {call : Call} {edits : List Edit}

/-- A text in which the front, the name and the arguments of a call are written anew. -/
def Call.rewritten (text : String) (call : Call) (contents : List String) : String :=
  String.ofList (Edit.splice text.toList 0 (List.zipWith Edit.mk call.anchors contents)
    (Text.byteLength text.toList))

namespace Rule

/-! ## Edits in sequence -/

theorem inSequence_iff :
    inSequence edits = true ↔ edits.Pairwise fun a b => a.span.stop ≤ b.span.start := by
  induction edits with
  | nil => simp [inSequence]
  | cons a edits ih =>
    cases edits with
    | nil => simp [inSequence]
    | cons b rest =>
      have hb := b.span.start_le_stop
      unfold inSequence
      rw [Bool.and_eq_true, decide_eq_true_eq, ih, List.pairwise_cons (a := a)]
      refine and_congr_left fun hrest => ⟨fun hab c hc => ?_, fun h => h b List.mem_cons_self⟩
      rcases List.mem_cons.1 hc with rfl | hc
      · exact hab
      · have hbc := (List.pairwise_cons.1 hrest).1 c hc
        omega

/-! ## The steps of a fix -/

/-- A rule has a fix at a call when the argument phase breaks no promise and the sorted edits of all
phases come in sequence. -/
theorem fix_eq_ok_iff {fix : CallFix} : rule.fix text call = .ok fix ↔
    ∃ edits conflicts, rule.argumentEdits text call = .ok (edits, conflicts) ∧
      inSequence (Edit.sort (rule.renameEdits call ++ edits ++ rule.targetEdits call)) = true ∧
      ⟨call.span, Edit.sort (rule.renameEdits call ++ edits ++ rule.targetEdits call), conflicts⟩
        = fix := by
  unfold Rule.fix
  rw [bind_eq_ok_iff, Prod.exists]
  refine exists_congr fun edits => exists_congr fun conflicts => and_congr_right fun _ => ?_
  show (if inSequence _ then _ else _) = _ ↔ _
  split
  · next hsequence =>
    simp only [hsequence, true_and]
    exact ⟨Except.ok.inj, congrArg Except.ok⟩
  · next hsequence =>
    simp only [hsequence]
    exact ⟨nofun, nofun⟩

theorem fix?_eq_some_iff {fix : CallFix} : rule.fix? text call = .ok (some fix) ↔
    rule.signature.selects call = true ∧ rule.fix text call = .ok fix := by
  unfold fix?
  split
  · next h => simp [h, map_eq_ok_iff]
  · next h => simp [h]

/-! ## What is written in each place -/

/-- What a rule writes where the receiver of a call is written. -/
def frontText (rule : Rule) (text : String) (call : Call) : String :=
  match rule.target?, call.callee with
  | none, _ => Text.slice text call.front
  | some target, .qualified _ _ => target.receiver
  | some target, .bare _ => target.receiver ++ "."

/-- What a rule writes where the name of a call stands. -/
def nameText (rule : Rule) (text : String) (call : Call) : String :=
  match rule.rename? with
  | none => Text.slice text call.callee.name.span
  | some name => name

theorem padded_targetEdits (rule : Rule) (text : String) (call : Call) :
    Edit.Padded text (rule.targetEdits call) [⟨call.front, rule.frontText text call⟩] := by
  unfold targetEdits frontText Call.front
  cases rule.target? with
  | none => exact Edit.Padded.nil.idle _
  | some target => cases call.callee <;> exact Edit.Padded.nil.keep _

theorem padded_renameEdits (rule : Rule) (text : String) (call : Call) :
    Edit.Padded text (rule.renameEdits call)
      [⟨call.callee.name.span, rule.nameText text call⟩] := by
  unfold renameEdits nameText
  cases rule.rename? with
  | none => exact Edit.Padded.nil.idle _
  | some name => exact Edit.Padded.nil.keep _

/-! ## All phases -/

/-- Edits that write the places of a call anew precede each other if the places do. -/
theorem pairwise_anchorEdits {contents : List String} (h : call.anchors.Pairwise Span.Precedes)
    (hlen : contents.length = call.anchors.length) :
    (List.zipWith Edit.mk call.anchors contents).Pairwise fun a b => a.span.Precedes b.span := by
  rw [← Edit.map_span_zipWith hlen] at h
  exact List.pairwise_map.1 h

theorem span_mem_anchors {contents : List String} {e : Edit}
    (hlen : contents.length = call.anchors.length)
    (he : e ∈ List.zipWith Edit.mk call.anchors contents) : e.span ∈ call.anchors := by
  have hmem := List.mem_map_of_mem (f := Edit.span) he
  rwa [Edit.map_span_zipWith hlen] at hmem

/-- Edits of the arguments that write something else in some of their slots are gathered with those
of the receiver and of the name, in the order of the text. -/
theorem fix_eq_ok_of_padded {conflicts : List Conflict} {contents : List String}
    (hanchors : call.anchors.Pairwise Span.Precedes)
    (hok : rule.argumentEdits text call = .ok (edits, conflicts))
    (hlen : contents.length = call.arguments.length)
    (hpad : Edit.Padded text edits
      (List.zipWith Edit.mk (call.arguments.map Expr.span) contents)) :
    rule.fix text call
        = .ok ⟨call.span, rule.targetEdits call ++ (rule.renameEdits call ++ edits), conflicts⟩ ∧
      Edit.Padded text (rule.targetEdits call ++ (rule.renameEdits call ++ edits))
        (List.zipWith Edit.mk call.anchors
          (rule.frontText text call :: rule.nameText text call :: contents)) := by
  have hall : Edit.Padded text (rule.targetEdits call ++ (rule.renameEdits call ++ edits))
      (List.zipWith Edit.mk call.anchors
        (rule.frontText text call :: rule.nameText text call :: contents)) :=
    (padded_targetEdits rule text call).append ((padded_renameEdits rule text call).append hpad)
  refine ⟨?_, hall⟩
  have hprec : (rule.targetEdits call ++ (rule.renameEdits call ++ edits)).Pairwise
      fun a b => a.span.Precedes b.span :=
    (pairwise_anchorEdits hanchors (by simp [hlen])).sublist hall.sublist
  -- the receiver comes last in the list of the phases and first in the text
  have hsort : Edit.sort (rule.renameEdits call ++ edits ++ rule.targetEdits call)
      = rule.targetEdits call ++ (rule.renameEdits call ++ edits) :=
    Span.sortOn_eq_of_perm List.perm_append_comm hprec
  have hsequence : inSequence (rule.targetEdits call ++ (rule.renameEdits call ++ edits)) = true :=
    inSequence_iff.2 (hprec.imp Span.Precedes.stop_le)
  refine fix_eq_ok_iff.2 ⟨edits, conflicts, hok, ?_, ?_⟩
  · rwa [hsort]
  · rw [hsort]

/-- The fix of a well-formed call has the edits of the receiver, of the name and of the arguments,
in this order. Each of them writes something else in one of the places of the call. -/
theorem fix_eq_ok (rule : Rule) (h : call.WellFormed text) :
    ∃ fix contents, rule.fix text call = .ok fix ∧
      contents.length = call.arguments.length ∧
      Edit.Padded text fix.edits (List.zipWith Edit.mk call.anchors
        (rule.frontText text call :: rule.nameText text call :: contents)) := by
  obtain ⟨edits, conflicts, hok, hspans⟩ := argumentEdits_eq_ok rule h.arguments h.fits
  obtain ⟨contents, hlen, hpad⟩ := Edit.exists_padded_of_sublist hspans
  rw [List.length_map] at hlen
  obtain ⟨hfix, hall⟩ := fix_eq_ok_of_padded h.pairwise_anchors hok hlen hpad
  exact ⟨_, contents, hfix, hlen, hall⟩

/-- The edits of a well-formed call are edits of its places, in order. -/
theorem edits_of_fix {fix : CallFix} (h : call.WellFormed text)
    (hfix : rule.fix text call = .ok fix) :
    (∀ e ∈ fix.edits, e.span ∈ call.anchors) ∧
      fix.edits.Pairwise fun a b => a.span.Precedes b.span := by
  obtain ⟨_, contents, hok, hlen, hpad⟩ := fix_eq_ok rule h
  obtain rfl := Except.ok.inj (hok.symm.trans hfix)
  have hanchors : (rule.frontText text call :: rule.nameText text call :: contents).length
      = call.anchors.length := by simp [hlen]
  exact ⟨fun e he => span_mem_anchors hanchors (hpad.sublist.subset he),
    (pairwise_anchorEdits h.pairwise_anchors hanchors).sublist hpad.sublist⟩

/-- Edits that write anew some of the places of a well-formed call can be carried out. -/
theorem applyAll_padded {contents : List String} (h : call.WellFormed text)
    (hlen : contents.length = call.anchors.length)
    (hpad : Edit.Padded text edits (List.zipWith Edit.mk call.anchors contents)) :
    Edit.applyAll text edits = .ok (call.rewritten text contents) := by
  have hprec := pairwise_anchorEdits h.pairwise_anchors hlen
  have hfull : Edit.Applicable text.toList (List.zipWith Edit.mk call.anchors contents) :=
    ⟨fun e he => h.anchors_fits _ (span_mem_anchors hlen he),
      hprec.imp Span.Precedes.not_overlaps⟩
  have hwithin := hfull.within_text
  rw [Edit.sort_eq_self hprec] at hwithin
  refine Edit.applyAll_eq_ok_iff.2 ⟨hfull.sublist hpad.sublist, ?_⟩
  rw [Edit.sort_eq_self (hprec.sublist hpad.sublist), Edit.splice_padded hpad hwithin]
  rfl

/-! ## A call inside another one -/

/-- Calls of methods of `T` move to `U`, and their first argument behind the others. -/
def rotateToU : Rule where
  signature := ⟨"T *(..)", [.one (Pattern.Glob.ofStars ['T'])], .any, [.gap]⟩
  arguments := [{ selector := .position 0, moveToLast := true }]
  target? := some (.onClass "U")

/-- The call `f(g(1), h)` in a text that holds nothing else. -/
def outerCall : Call where
  span := ⟨0, 10, by decide⟩
  callee := .bare ⟨"f", ⟨0, 1, by decide⟩⟩
  arguments := [
    .node ⟨2, 6, by decide⟩ (some "int") [.literal ⟨4, 5, by decide⟩ (some "int") (.int 1)],
    .node ⟨8, 9, by decide⟩ (some "int") []]
  owner := some "T"
  method := none

/-- The call `g(1)` in `f(g(1), h)`. -/
def innerCall : Call where
  span := ⟨2, 6, by decide⟩
  callee := .bare ⟨"g", ⟨2, 3, by decide⟩⟩
  arguments := [.literal ⟨4, 5, by decide⟩ (some "int") (.int 1)]
  owner := some "T"
  method := none

/-! ## What the host can rely on -/

/-- **What a rule does to a well-formed call.** It breaks no promise. Its edits are sorted, do not
overlap and stay inside the call. They can be carried out, and the text that comes out is the old
one with the front, the name and the arguments written anew. -/
theorem fix?_of_wellFormed (rule : Rule) (hselects : rule.signature.selects call = true)
    (h : call.WellFormed text) :
    ∃ fix, rule.fix? text call = .ok (some fix) ∧
      (fix.edits.Pairwise fun a b => a.span ≤ b.span) ∧
      (fix.edits.Pairwise fun a b => ¬ a.span.Overlaps b.span) ∧
      (∀ e ∈ fix.edits, call.span.Contains e.span) ∧
      ∃ argumentTexts : List String, argumentTexts.length = call.arguments.length ∧
        Edit.applyAll text fix.edits = .ok (call.rewritten text
          (rule.frontText text call :: rule.nameText text call :: argumentTexts)) := by
  obtain ⟨fix, contents, hok, hlen, hpad⟩ := fix_eq_ok rule h
  obtain ⟨hspans, hprec⟩ := edits_of_fix h hok
  have hanchors : (rule.frontText text call :: rule.nameText text call :: contents).length
      = call.anchors.length := by simp [hlen]
  refine ⟨fix, ?_, hprec.imp Span.Precedes.le, hprec.imp Span.Precedes.not_overlaps, ?_,
    contents, hlen, applyAll_padded h hanchors hpad⟩
  · unfold fix?
    rw [if_pos hselects, hok]
    rfl
  · intro e he
    exact h.anchors_inside _ (hspans e he)

theorem fix?_of_wellFormed_outerCall :
    rotateToU.signature.selects outerCall = true ∧ outerCall.WellFormed "f(g(1), h)" ∧
      ∃ fix, rotateToU.fix? "f(g(1), h)" outerCall = .ok (some fix) ∧
        ∃ contents, Edit.applyAll "f(g(1), h)" fix.edits
          = .ok (outerCall.rewritten "f(g(1), h)" contents) := by
  have hselects : rotateToU.signature.selects outerCall = true := by decide +kernel
  have hwell : outerCall.WellFormed "f(g(1), h)" := by decide +kernel
  obtain ⟨fix, hfix, _, _, _, argumentTexts, _, happly⟩ :=
    fix?_of_wellFormed rotateToU hselects hwell
  exact ⟨hselects, hwell, fix, hfix, _, happly⟩

end Rule

end CallRefactor
