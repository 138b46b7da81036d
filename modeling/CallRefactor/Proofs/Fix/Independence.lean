import CallRefactor.Proofs.Fix.Reorder
import CallRefactor.Proofs.Span.Stable

/-!
# Phases on their own

No phase of a rule sees what the others do: each reads its own part of the rule and gives the same
edits whatever the other parts say. So a rule can be taken apart into three, one for each phase. If
the whole rule breaks no promise at a call, none of the three does, since the edits of a phase stand
among the sorted edits of all phases as they do alone.

Main statement: `fix?_phases`.
-/

namespace CallRefactor.Rule

variable {rule other : Rule} {text : String} {call : Call} {edits : List Edit}
  {conflicts : List Conflict} {fix : CallFix}

/-! ## Rules of one phase -/

/-- What a rule says about the name, for the same calls. -/
def renameOnly (rule : Rule) : Rule where
  signature := rule.signature
  rename? := rule.rename?

/-- What a rule says about the arguments, for the same calls. -/
def argumentsOnly (rule : Rule) : Rule where
  signature := rule.signature
  reorder? := rule.reorder?
  arguments := rule.arguments

/-- What a rule says about the receiver, for the same calls. -/
def targetOnly (rule : Rule) : Rule where
  signature := rule.signature
  target? := rule.target?

/-- What a rule says about all but the arguments, for the same calls. -/
def withoutArguments (rule : Rule) : Rule where
  signature := rule.signature
  rename? := rule.rename?
  target? := rule.target?

/-! ## What the argument phase reads -/

theorem argumentText_congr (hrules : rule.arguments = other.arguments) (index : Nat)
    (argument : Expr) :
    rule.argumentText text index argument = other.argumentText text index argument := by
  unfold argumentText transform?
  rw [hrules]

theorem reorderFrom_congr (hrules : rule.arguments = other.arguments) (method : Method)
    (position : Nat) (keys : List ReorderKey) (slots : List Expr) :
    rule.reorderFrom text call method position keys slots
      = other.reorderFrom text call method position keys slots := by
  induction slots generalizing position keys with
  | nil => cases keys <;> rfl
  | cons slot slots ih =>
    cases keys with
    | nil => rfl
    | cons key keys =>
      unfold reorderFrom
      simp only [ih, argumentText_congr hrules]

theorem transformEdits_congr (hrules : rule.arguments = other.arguments) :
    rule.transformEdits text call = other.transformEdits text call := by
  unfold transformEdits arrange movesToLast slotEdit?
  simp only [hrules, argumentText_congr hrules]

/-- The argument phase reads the new order and the rules for single arguments, and nothing else. -/
theorem argumentEdits_congr (hreorder : rule.reorder? = other.reorder?)
    (hrules : rule.arguments = other.arguments) :
    rule.argumentEdits text call = other.argumentEdits text call := by
  unfold argumentEdits reorderEdits
  simp only [hreorder, hrules, reorderFrom_congr hrules, transformEdits_congr hrules]

/-- A conflict takes the place of all edits of the arguments. -/
theorem edits_eq_nil_of_conflict (h : rule.argumentEdits text call = .ok (edits, conflicts))
    (hconflicts : conflicts ≠ []) : edits = [] := by
  unfold argumentEdits at h
  split at h
  · obtain ⟨outcome, -, houtcome⟩ := map_eq_ok_iff.1 h
    cases outcome with
    | ok found => exact absurd (congrArg Prod.snd houtcome).symm hconflicts
    | error conflict => exact (congrArg Prod.fst houtcome).symm
  · split at h
    · exact absurd (congrArg Prod.snd (Except.ok.inj h)).symm hconflicts
    · obtain ⟨found, -, hfound⟩ := map_eq_ok_iff.1 h
      exact absurd (congrArg Prod.snd hfound).symm hconflicts

/-! ## Fixes phase by phase -/

/-- Edits in sequence stay in sequence when some of them are left out. -/
theorem inSequence_sort_of_sublist {part : List Edit} (h : part.Sublist edits)
    (hsequence : inSequence (Edit.sort edits) = true) : inSequence (Edit.sort part) = true :=
  inSequence_iff.2 ((inSequence_iff.1 hsequence).sublist (Span.sortOn_sublist h))

/-- A rule with some of the edits of another one breaks no promise where that one breaks none. -/
theorem fix?_of_sublist {found part : List Edit} (hselects : rule.signature.selects call = true)
    (hok : rule.argumentEdits text call = .ok (found, conflicts))
    (hpart : rule.renameEdits call ++ found ++ rule.targetEdits call = part)
    (hsub : part.Sublist edits) (hsequence : inSequence (Edit.sort edits) = true) :
    rule.fix? text call = .ok (some ⟨call.span, Edit.sort part, conflicts⟩) := by
  subst hpart
  exact fix?_eq_some_iff.2 ⟨hselects,
    fix_eq_ok_iff.2 ⟨found, conflicts, hok, inSequence_sort_of_sublist hsub hsequence, rfl⟩⟩

/-- **The phases are independent.** Where a rule breaks no promise at a call it selects, neither do
the rules that say only what it says about the name, the arguments or the receiver. Its edits are
theirs, sorted stably, and its conflicts are those of the arguments alone. With a conflict there is
no edit of the arguments, and the others are those of the rule that says nothing about arguments. -/
theorem fix?_phases (h : rule.fix? text call = .ok (some fix)) :
    ∃ renamed arranged retargeted,
      rule.renameOnly.fix? text call = .ok (some renamed) ∧
      rule.argumentsOnly.fix? text call = .ok (some arranged) ∧
      rule.targetOnly.fix? text call = .ok (some retargeted) ∧
      Span.IsStableSort Edit.span (renamed.edits ++ arranged.edits ++ retargeted.edits) fix.edits ∧
      renamed.conflicts = [] ∧ arranged.conflicts = fix.conflicts ∧ retargeted.conflicts = [] ∧
      (fix.conflicts ≠ [] → arranged.edits = [] ∧
        rule.withoutArguments.fix? text call = .ok (some ⟨fix.call, fix.edits, []⟩)) := by
  obtain ⟨hselects, hfix⟩ := fix?_eq_some_iff.1 h
  obtain ⟨edits, conflicts, hok, hsequence, rfl⟩ := fix_eq_ok_iff.1 hfix
  have harguments : rule.argumentsOnly.argumentEdits text call = rule.argumentEdits text call :=
    argumentEdits_congr rfl rfl
  have hrenamed : rule.renameOnly.fix? text call
      = .ok (some ⟨call.span, Edit.sort (rule.renameEdits call), []⟩) :=
    fix?_of_sublist hselects rfl ((List.append_nil _).trans (List.append_nil _))
      ((List.sublist_append_left _ _).trans (List.sublist_append_left _ _)) hsequence
  have harranged : rule.argumentsOnly.fix? text call
      = .ok (some ⟨call.span, Edit.sort edits, conflicts⟩) :=
    fix?_of_sublist hselects (harguments.trans hok) (List.append_nil _)
      ((List.sublist_append_right _ _).trans (List.sublist_append_left _ _)) hsequence
  have hretargeted : rule.targetOnly.fix? text call
      = .ok (some ⟨call.span, Edit.sort (rule.targetEdits call), []⟩) :=
    fix?_of_sublist hselects rfl rfl (List.sublist_append_right _ _) hsequence
  refine ⟨_, _, _, hrenamed, harranged, hretargeted, Span.isStableSort_append _ _ _ _, rfl, rfl,
    rfl, fun hconflicts => ?_⟩
  obtain rfl := edits_eq_nil_of_conflict hok hconflicts
  exact ⟨rfl, fix?_of_sublist hselects rfl rfl (List.Sublist.refl _) hsequence⟩

/-- Calls of methods of `T` become calls of the method `k` of `U`, with their arguments in the order
of the keys. -/
def reorderToUK (keys : List ReorderKey) : Rule :=
  { reorderTo keys with rename? := some "k", target? := some (.onClass "U") }

/-- The call `f(g(1), h)` gets a new name and a receiver, while its second key finds no argument. -/
theorem fix?_phases_declaredCall :
    (reorderToUK [.name "b", .position 2]).fix? "f(g(1), h)" declaredCall = .ok (some
      ⟨declaredCall.span, [Edit.insertion 0 "U.", ⟨⟨0, 1, by decide⟩, "k"⟩],
        [.unresolvedTarget declaredCall.span "#2"]⟩) ∧
    (reorderToUK [.name "b", .position 2]).withoutArguments.fix? "f(g(1), h)" declaredCall
      = .ok (some ⟨declaredCall.span, [Edit.insertion 0 "U.", ⟨⟨0, 1, by decide⟩, "k"⟩], []⟩) := by
  have h : (reorderToUK [.name "b", .position 2]).fix? "f(g(1), h)" declaredCall = .ok (some
      ⟨declaredCall.span, [Edit.insertion 0 "U.", ⟨⟨0, 1, by decide⟩, "k"⟩],
        [.unresolvedTarget declaredCall.span "#2"]⟩) := by
    rfl
  obtain ⟨_, _, _, -, -, -, -, -, -, -, hconflict⟩ := fix?_phases h
  exact ⟨h, (hconflict (List.cons_ne_nil _ _)).2⟩

end CallRefactor.Rule
