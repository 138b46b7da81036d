import CallRefactor.Proofs.Success
import CallRefactor.Rule.Draft

/-!
# What a draft is built to

A draft is built to a rule when its signature and all its type patterns can be read, no modifier is
dangling and there is one target at most. The rule then has the parts of the draft. Otherwise the
error tells of the first of these that fails.

Main statements: `Draft.build_eq_ok_iff` and `Draft.build_eq_error_iff`.
-/

namespace CallRefactor

/-! ## Patterns -/

theorem Signature.compile_eq_error {text : String} {error : RuleError}
    (h : Signature.compile text = .error error) : ∃ cause, error = .malformed text cause := by
  obtain ⟨cause, _, rfl⟩ := mapError_eq_error_iff.1 h
  exact ⟨cause, rfl⟩

theorem TypePattern.compile_eq_error {text : String} {error : RuleError}
    (h : TypePattern.compile text = .error error) : ∃ cause, error = .malformed text cause := by
  obtain ⟨cause, _, rfl⟩ := mapError_eq_error_iff.1 h
  exact ⟨cause, rfl⟩

namespace Constraint

variable {constraint : Constraint} {selector : Selector} {error : RuleError}

theorem compile_eq_error_iff :
    constraint.compile = .error error ↔
      ∃ text, constraint = .type text ∧ TypePattern.compile text = .error error := by
  cases constraint with
  | position index => exact ⟨nofun, nofun⟩
  | type text =>
    constructor
    · intro h
      exact ⟨text, rfl, map_eq_error_iff.1 h⟩
    · rintro ⟨_, ⟨⟩, h⟩
      exact map_eq_error_iff.2 h

/-- The selector that is read from a constraint leads back to it. -/
theorem constraint_of_compile (h : constraint.compile = .ok selector) :
    selector.constraint = constraint := by
  cases constraint with
  | position index =>
    obtain rfl := Except.ok.inj h
    rfl
  | type text =>
    obtain ⟨pattern, hpattern, rfl⟩ := map_eq_ok_iff.1 h
    obtain ⟨path, _, rfl⟩ := map_eq_ok_iff.1 (mapError_eq_ok_iff.1 hpattern)
    rfl

end Constraint

/-! ## Drafts -/

namespace Draft

variable {draft : Draft} {rule : Rule} {error : RuleError} {plan : ArgumentDraft}
  {argument : ArgumentRule}

theorem checkModifiers_eq_ok_iff : draft.checkModifiers = .ok () ↔ draft.dangling? = none := by
  unfold checkModifiers
  cases draft.dangling? with
  | none => exact ⟨fun _ => rfl, fun _ => rfl⟩
  | some modifier => exact ⟨nofun, nofun⟩

theorem checkModifiers_eq_error_iff :
    draft.checkModifiers = .error error ↔
      ∃ modifier, draft.dangling? = some modifier ∧ error = .danglingModifier modifier := by
  unfold checkModifiers
  cases draft.dangling? with
  | none => exact ⟨nofun, nofun⟩
  | some modifier =>
    constructor
    · intro h
      exact ⟨modifier, rfl, (Except.error.inj h).symm⟩
    · rintro ⟨_, ⟨⟩, rfl⟩
      rfl

/-- A target is read where there is one at most. -/
theorem readTarget_eq_ok_iff {target? : Option Target} :
    draft.readTarget = .ok target? ↔
      (∀ className, target? = some (.onClass className) ↔ draft.targetClass? = some className) ∧
      ∀ name, target? = some (.onVariable name) ↔ draft.targetVariable? = some name := by
  unfold readTarget
  rcases target? with _ | target | target <;> cases draft.targetClass? <;>
    cases draft.targetVariable? <;> simp [eq_comm]

theorem exists_readTarget_iff :
    (∃ target?, draft.readTarget = .ok target?) ↔
      draft.targetClass? = none ∨ draft.targetVariable? = none := by
  unfold readTarget
  cases draft.targetClass? <;> cases draft.targetVariable? <;> simp

theorem readTarget_eq_error_iff :
    draft.readTarget = .error error ↔
      ∃ className name, draft.targetClass? = some className ∧ draft.targetVariable? = some name ∧
        error = .twoTargets className name := by
  unfold readTarget
  cases draft.targetClass? <;> cases draft.targetVariable? <;> simp [eq_comm]

theorem readArgument_eq_ok_iff :
    readArgument plan = .ok argument ↔
      plan.constraint.compile = .ok argument.selector ∧ argument.transform? = plan.transform? ∧
        argument.moveToLast = plan.moveToLast := by
  unfold readArgument
  rw [map_eq_ok_iff]
  constructor
  · rintro ⟨selector, h, rfl⟩
    exact ⟨h, rfl, rfl⟩
  · obtain ⟨selector, transform?, moveToLast⟩ := argument
    rintro ⟨h, rfl, rfl⟩
    exact ⟨selector, h, rfl⟩

theorem readArgument_eq_error_iff :
    readArgument plan = .error error ↔ plan.constraint.compile = .error error :=
  map_eq_error_iff

/-! ## Building -/

/-- The rule that a draft is built to has the parts of the draft. -/
theorem build_eq_ok_iff :
    draft.build = .ok rule ↔
      Signature.compile draft.signature = .ok rule.signature ∧ draft.dangling? = none ∧
        draft.readTarget = .ok rule.target? ∧
        List.Forall₂ (fun plan argument => readArgument plan = .ok argument) draft.arguments
          rule.arguments ∧
        rule.rename? = draft.rename? ∧ rule.reorder? = draft.reorder? := by
  unfold build
  rw [← mapM_eq_ok_iff, ← checkModifiers_eq_ok_iff]
  constructor
  · intro h
    obtain ⟨signature, hsignature, h⟩ := bind_eq_ok_iff.1 h
    obtain ⟨_, hmodifiers, h⟩ := bind_eq_ok_iff.1 h
    obtain ⟨target?, htarget, h⟩ := bind_eq_ok_iff.1 h
    obtain ⟨arguments, harguments, h⟩ := bind_eq_ok_iff.1 h
    obtain rfl := Except.ok.inj h
    exact ⟨hsignature, hmodifiers, htarget, harguments, rfl, rfl⟩
  · obtain ⟨signature, rename?, reorder?, arguments, target?⟩ := rule
    rintro ⟨hsignature, hmodifiers, htarget, harguments, rfl, rfl⟩
    refine bind_eq_ok_iff.2 ⟨signature, hsignature, bind_eq_ok_iff.2 ⟨(), hmodifiers, ?_⟩⟩
    exact bind_eq_ok_iff.2 ⟨target?, htarget, bind_eq_ok_iff.2 ⟨arguments, harguments, rfl⟩⟩

/-- The error of a draft is the one of the first check that fails. -/
theorem build_eq_error_iff :
    draft.build = .error error ↔
      Signature.compile draft.signature = .error error ∨
      (∃ signature, Signature.compile draft.signature = .ok signature) ∧
        (draft.checkModifiers = .error error ∨ draft.dangling? = none ∧
          (draft.readTarget = .error error ∨ (∃ target?, draft.readTarget = .ok target?) ∧
            draft.arguments.mapM readArgument = .error error)) := by
  unfold build
  rw [← checkModifiers_eq_ok_iff]
  constructor
  · intro h
    rcases bind_eq_error_iff.1 h with h | ⟨signature, hsignature, h⟩
    · exact .inl h
    refine .inr ⟨⟨signature, hsignature⟩, ?_⟩
    rcases bind_eq_error_iff.1 h with h | ⟨_, hmodifiers, h⟩
    · exact .inl h
    refine .inr ⟨hmodifiers, ?_⟩
    rcases bind_eq_error_iff.1 h with h | ⟨target?, htarget, h⟩
    · exact .inl h
    refine .inr ⟨⟨target?, htarget⟩, ?_⟩
    rcases bind_eq_error_iff.1 h with h | ⟨_, _, ⟨⟩⟩
    exact h
  · rintro (h | ⟨⟨signature, hsignature⟩, h⟩)
    · exact bind_eq_error_iff.2 (.inl h)
    refine bind_eq_error_iff.2 (.inr ⟨signature, hsignature, ?_⟩)
    rcases h with h | ⟨hmodifiers, h⟩
    · exact bind_eq_error_iff.2 (.inl h)
    refine bind_eq_error_iff.2 (.inr ⟨(), hmodifiers, ?_⟩)
    rcases h with h | ⟨⟨target?, htarget⟩, h⟩
    · exact bind_eq_error_iff.2 (.inl h)
    exact bind_eq_error_iff.2 (.inr ⟨target?, htarget, bind_eq_error_iff.2 (.inl h)⟩)

theorem readArguments_ne_danglingModifier {plans : List ArgumentDraft} {modifier : Modifier} :
    plans.mapM readArgument ≠ .error (.danglingModifier modifier) := by
  intro h
  obtain ⟨_, plan, _, _, _, hplan⟩ := mapM_eq_error_iff.1 h
  obtain ⟨text, _, htext⟩ := Constraint.compile_eq_error_iff.1 (readArgument_eq_error_iff.1 hplan)
  obtain ⟨_, hcause⟩ := TypePattern.compile_eq_error htext
  cases hcause

theorem build_eq_danglingModifier_iff {modifier : Modifier} :
    draft.build = .error (.danglingModifier modifier) ↔
      (∃ signature, Signature.compile draft.signature = .ok signature) ∧
        draft.dangling? = some modifier := by
  rw [build_eq_error_iff]
  constructor
  · rintro (h | ⟨hsignature, h | ⟨_, h | ⟨_, h⟩⟩⟩)
    · obtain ⟨_, hcause⟩ := Signature.compile_eq_error h
      cases hcause
    · obtain ⟨_, hdangling, ⟨⟩⟩ := checkModifiers_eq_error_iff.1 h
      exact ⟨hsignature, hdangling⟩
    · obtain ⟨_, _, _, _, htargets⟩ := readTarget_eq_error_iff.1 h
      cases htargets
    · exact absurd h readArguments_ne_danglingModifier
  · rintro ⟨hsignature, hdangling⟩
    exact .inr ⟨hsignature, .inl (checkModifiers_eq_error_iff.2 ⟨modifier, hdangling, rfl⟩)⟩

end Draft

end CallRefactor
