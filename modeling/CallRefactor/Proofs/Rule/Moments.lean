import CallRefactor.Rule.Draft
import Mathlib.Data.List.Induction

/-!
# Steps and the rules in front of them

Steps that name a constraint add argument rules to a draft, and modifiers change the one added last.
So each step is seen together with the constraints of the rules that are there when it runs: that
alone tells which rule it is about.

Main statements: `mem_momentsFrom_iff`, where a step runs; `moved_iff` and `dangles_iff`; and
`moved_eq_false` and `gifts_eq_nil`, no step is about a rule that is yet to come.
-/

namespace CallRefactor

namespace DraftStep

/-! ## Which rule a step is about -/

/-- The modifier that a step is. -/
def modifier? : DraftStep → Option Modifier
  | .literalTransform _ => some .literalTransform
  | .moveToLast => some .moveToLast
  | _ => none

/-- The constraint that a step names: it adds a rule for it, or changes the first one there is. -/
def constraint? : DraftStep → Option Constraint
  | .argument constraint => some constraint
  | .literalTransformFor constraint _ => some constraint
  | _ => none

/-- The constraints of the rules behind a step, where `known` are those in front of it. -/
def register (known : List Constraint) : DraftStep → List Constraint
  | .argument constraint => known ++ [constraint]
  | .literalTransformFor constraint _ =>
    if constraint ∈ known then known else known ++ [constraint]
  | _ => known

/-- The constraints of the rules that steps add: one for each step that adds a rule, and one for
each step that gives a constraint its transform while there is no rule for it. -/
def registered (steps : List DraftStep) : List Constraint := steps.foldl register []

/-- A step at the moment when it runs. -/
structure Moment where
  /-- The constraints of the rules that there are. -/
  known : List Constraint
  /-- The step. -/
  step : DraftStep

/-- Whether a step makes the rule at a position move its arguments: that rule was added last. -/
def Moment.moves (moment : Moment) (position : Nat) : Bool :=
  match moment.step with
  | .moveToLast => moment.known.length = position + 1
  | _ => false

/-- The transform that a step gives the rule at a position. It is the rule that was added last, or
the first one for the constraint that the step names, once there is one. -/
def Moment.gift? (moment : Moment) (position : Nat) : Option LiteralTransform :=
  match moment.step with
  | .literalTransform transform =>
    if moment.known.length = position + 1 then some transform else none
  | .literalTransformFor constraint transform =>
    if (moment.step.register moment.known).idxOf? constraint = some position then some transform
    else none
  | _ => none

/-- Steps at the moments when they run, behind rules for the constraints `known`. -/
def momentsFrom (known : List Constraint) : List DraftStep → List Moment
  | [] => []
  | step :: rest => ⟨known, step⟩ :: momentsFrom (step.register known) rest

/-- Steps at the moments when they run. -/
def moments (steps : List DraftStep) : List Moment := momentsFrom [] steps

/-- The transforms that steps give the rule at a position, in order. -/
def gifts (steps : List DraftStep) (position : Nat) : List LiteralTransform :=
  (moments steps).filterMap fun moment => moment.gift? position

/-- Whether some step makes the rule at a position move its arguments. -/
def moved (steps : List DraftStep) (position : Nat) : Bool :=
  (moments steps).any fun moment => moment.moves position

/-- A modifier runs before there is any rule. -/
def Dangles (steps : List DraftStep) : Prop :=
  ∃ before step after, steps = before ++ step :: after ∧ step.modifier? ≠ none ∧
    ∀ earlier ∈ before, earlier.constraint? = none

variable {steps : List DraftStep} {step : DraftStep} {known : List Constraint} {position : Nat}
  {moment : Moment}

/-! ## One step more -/

theorem registered_append (before after : List DraftStep) :
    registered (before ++ after) = after.foldl register (registered before) :=
  List.foldl_append

theorem registered_concat (steps : List DraftStep) (step : DraftStep) :
    registered (steps ++ [step]) = step.register (registered steps) :=
  registered_append steps [step]

theorem momentsFrom_append (known : List Constraint) (before after : List DraftStep) :
    momentsFrom known (before ++ after) =
      momentsFrom known before ++ momentsFrom (before.foldl register known) after := by
  induction before generalizing known with
  | nil => rfl
  | cons step before ih => exact congrArg (⟨known, step⟩ :: ·) (ih _)

theorem moments_concat (steps : List DraftStep) (step : DraftStep) :
    moments (steps ++ [step]) = moments steps ++ [⟨registered steps, step⟩] :=
  momentsFrom_append [] steps [step]

theorem gifts_concat (steps : List DraftStep) (step : DraftStep) (position : Nat) :
    (gifts (steps ++ [step]) position).getLast? =
      (Moment.gift? ⟨registered steps, step⟩ position).or (gifts steps position).getLast? := by
  unfold gifts
  rw [moments_concat, List.filterMap_append]
  cases hgift : Moment.gift? ⟨registered steps, step⟩ position with
  | none => simp [hgift]
  | some transform => simp [hgift]

theorem moved_concat (steps : List DraftStep) (step : DraftStep) (position : Nat) :
    moved (steps ++ [step]) position =
      (moved steps position || Moment.moves ⟨registered steps, step⟩ position) := by
  unfold moved
  rw [moments_concat, List.any_append, List.any_cons, List.any_nil, Bool.or_false]

/-! ## Where a step runs -/

/-- Steps can be cut at each of their moments. -/
theorem mem_momentsFrom_iff :
    moment ∈ momentsFrom known steps ↔
      ∃ before after, steps = before ++ moment.step :: after ∧
        moment.known = before.foldl register known := by
  induction steps generalizing known with
  | nil =>
    constructor
    · intro h
      cases h
    · rintro ⟨before, after, h, _⟩
      exact absurd h.symm (List.append_ne_nil_of_right_ne_nil before (List.cons_ne_nil _ after))
  | cons step steps ih =>
    rw [momentsFrom, List.mem_cons, ih]
    constructor
    · rintro (rfl | ⟨before, after, rfl, h⟩)
      · exact ⟨[], steps, rfl, rfl⟩
      · exact ⟨step :: before, after, rfl, h⟩
    · rintro ⟨before, after, hsplit, h⟩
      cases before with
      | nil =>
        obtain ⟨rfl, rfl⟩ := List.cons.inj hsplit
        exact .inl (by rw [← show moment.known = known from h])
      | cons first before =>
        obtain ⟨rfl, rfl⟩ := List.cons.inj hsplit
        exact .inr ⟨before, after, rfl, h⟩

theorem moved_iff :
    moved steps position = true ↔
      ∃ before after, steps = before ++ .moveToLast :: after ∧
        (registered before).length = position + 1 := by
  unfold moved moments
  rw [List.any_eq_true]
  constructor
  · rintro ⟨⟨known, step⟩, hmoment, hmoves⟩
    obtain ⟨before, after, hsplit, hknown⟩ := mem_momentsFrom_iff.1 hmoment
    cases step with
    | moveToLast =>
      have hlength : known.length = position + 1 := of_decide_eq_true hmoves
      exact ⟨before, after, hsplit, (congrArg List.length hknown).symm.trans hlength⟩
    | _ => cases hmoves
  · rintro ⟨before, after, hsplit, hlength⟩
    exact ⟨⟨registered before, .moveToLast⟩, mem_momentsFrom_iff.2 ⟨before, after, hsplit, rfl⟩,
      decide_eq_true hlength⟩

/-! ## Steps without rules -/

theorem register_of_constraint? (h : step.constraint? = none) (known : List Constraint) :
    step.register known = known := by
  cases step with
  | argument constraint => cases h
  | literalTransformFor constraint transform => cases h
  | _ => rfl

theorem gift?_eq_none (hconstraint : step.constraint? = none) (hmodifier : step.modifier? = none)
    (known : List Constraint) (position : Nat) : Moment.gift? ⟨known, step⟩ position = none := by
  cases step with
  | literalTransform transform => cases hmodifier
  | literalTransformFor constraint transform => cases hconstraint
  | _ => rfl

theorem register_eq_nil_iff : step.register known = [] ↔ known = [] ∧ step.constraint? = none := by
  cases step with
  | argument constraint => simp [register, constraint?]
  | literalTransformFor constraint transform =>
    simp only [register, constraint?, reduceCtorEq, and_false, iff_false]
    split
    · next hmem => exact List.ne_nil_of_mem hmem
    · exact List.append_ne_nil_of_right_ne_nil _ (List.cons_ne_nil _ _)
  | _ => simp [register, constraint?]

theorem registered_eq_nil_iff :
    registered steps = [] ↔ ∀ step ∈ steps, step.constraint? = none := by
  induction steps using List.reverseRecOn with
  | nil => exact ⟨fun _ => nofun, fun _ => rfl⟩
  | append_singleton steps step ih =>
    rw [registered_concat, register_eq_nil_iff, ih, List.forall_mem_append,
      List.forall_mem_singleton]

theorem dangles_iff :
    Dangles steps ↔ ∃ moment ∈ moments steps, moment.step.modifier? ≠ none ∧ moment.known = [] := by
  unfold Dangles moments
  constructor
  · rintro ⟨before, step, after, hsplit, hmodifier, hbefore⟩
    exact ⟨⟨registered before, step⟩, mem_momentsFrom_iff.2 ⟨before, after, hsplit, rfl⟩,
      hmodifier, registered_eq_nil_iff.2 hbefore⟩
  · rintro ⟨moment, hmoment, hmodifier, hknown⟩
    obtain ⟨before, after, hsplit, h⟩ := mem_momentsFrom_iff.1 hmoment
    exact ⟨before, moment.step, after, hsplit, hmodifier,
      registered_eq_nil_iff.1 (h.symm.trans hknown)⟩

theorem dangles_concat_iff :
    Dangles (steps ++ [step]) ↔
      Dangles steps ∨ step.modifier? ≠ none ∧ registered steps = [] := by
  rw [dangles_iff, dangles_iff, moments_concat]
  simp only [List.mem_append, List.mem_singleton, or_and_right, exists_or, exists_eq_left]

/-! ## Steps about other parts of the rule -/

theorem registered_append_of_idle {after : List DraftStep}
    (h : ∀ step ∈ after, step.constraint? = none ∧ step.modifier? = none) (steps : List DraftStep) :
    registered (steps ++ after) = registered steps := by
  induction after using List.reverseRecOn with
  | nil => rw [List.append_nil]
  | append_singleton after step ih =>
    obtain ⟨hafter, hstep⟩ := List.forall_mem_append.1 h
    rw [← List.append_assoc, registered_concat, ih hafter,
      register_of_constraint? (List.forall_mem_singleton.1 hstep).1]

theorem gifts_append_of_idle {after : List DraftStep}
    (h : ∀ step ∈ after, step.constraint? = none ∧ step.modifier? = none) (steps : List DraftStep)
    (position : Nat) :
    (gifts (steps ++ after) position).getLast? = (gifts steps position).getLast? := by
  induction after using List.reverseRecOn with
  | nil => rw [List.append_nil]
  | append_singleton after step ih =>
    obtain ⟨hafter, hstep⟩ := List.forall_mem_append.1 h
    obtain ⟨hconstraint, hmodifier⟩ := List.forall_mem_singleton.1 hstep
    rw [← List.append_assoc, gifts_concat, gift?_eq_none hconstraint hmodifier, Option.none_or,
      ih hafter]

/-! ## Steps are about rules that there are -/

theorem exists_register_eq_append (known : List Constraint) (step : DraftStep) :
    ∃ added, step.register known = known ++ added := by
  cases step with
  | argument constraint => exact ⟨[constraint], rfl⟩
  | literalTransformFor constraint transform =>
    rw [register]
    split
    · exact ⟨[], (List.append_nil known).symm⟩
    · exact ⟨[constraint], rfl⟩
  | _ => exact ⟨[], (List.append_nil known).symm⟩

theorem length_le_register (known : List Constraint) (step : DraftStep) :
    known.length ≤ (step.register known).length := by
  obtain ⟨added, h⟩ := exists_register_eq_append known step
  rw [h, List.length_append]
  exact Nat.le_add_right _ _

theorem Moment.lt_of_moves (h : moment.moves position = true) :
    position < (moment.step.register moment.known).length := by
  have hlength := length_le_register moment.known moment.step
  unfold moves at h
  split at h
  · have hlast := of_decide_eq_true h
    omega
  · cases h

theorem Moment.lt_of_gift? {transform : LiteralTransform}
    (h : moment.gift? position = some transform) :
    position < (moment.step.register moment.known).length := by
  have hlength := length_le_register moment.known moment.step
  unfold gift? at h
  split at h
  · split at h
    · omega
    · cases h
  · split at h
    · next hfirst =>
      rw [List.idxOf?, List.findIdx?_eq_some_iff_getElem] at hfirst
      exact hfirst.1
    · cases h
  · cases h

/-- What is registered at a moment stays registered. -/
theorem length_register_le (h : moment ∈ moments steps) :
    (moment.step.register moment.known).length ≤ (registered steps).length := by
  induction steps using List.reverseRecOn with
  | nil => cases h
  | append_singleton steps step ih =>
    rw [registered_concat]
    rw [moments_concat, List.mem_append, List.mem_singleton] at h
    rcases h with h | rfl
    · exact Nat.le_trans (ih h) (length_le_register _ step)
    · exact Nat.le_refl _

theorem moved_eq_false (h : (registered steps).length ≤ position) :
    moved steps position = false := by
  unfold moved
  rw [List.any_eq_false]
  intro moment hmoment hmoves
  have := Moment.lt_of_moves hmoves
  have := length_register_le hmoment
  omega

theorem gifts_eq_nil (h : (registered steps).length ≤ position) : gifts steps position = [] := by
  unfold gifts
  rw [List.filterMap_eq_nil_iff]
  intro moment hmoment
  rw [Option.eq_none_iff_forall_not_mem]
  intro transform hgift
  have := Moment.lt_of_gift? hgift
  have := length_register_le hmoment
  omega

/-- A step that gives the first rule for a constraint its transform finds one or adds one. -/
theorem exists_idxOf?_register (known : List Constraint) (constraint : Constraint)
    (transform : LiteralTransform) :
    ∃ position, ((DraftStep.literalTransformFor constraint transform).register known).idxOf?
      constraint = some position := by
  rw [← Option.isSome_iff_exists, List.isSome_idxOf?, register]
  split
  · assumption
  · exact List.mem_append_right known List.mem_cons_self

end DraftStep

end CallRefactor
