import CallRefactor.Proofs.Rule.Build
import CallRefactor.Proofs.Rule.Moments
import CallRefactor.Proofs.Rule.Resolution

/-!
# What the steps of a draft add up to

A modifier with no argument rule in front of it leaves a draft without a rule for good. Otherwise
every argument rule moves its arguments when some step about it says so, and has the transform that
the last step about it gives. `Draft.arguments_step` says what one step does to the argument rules,
and `Draft.arguments_steps` what all of them do.

Main statement: `Draft.build_of_steps`.
-/

namespace CallRefactor

namespace Draft

open DraftStep

variable {draft : Draft} {step : DraftStep} {steps : List DraftStep}

/-! ## One step -/

theorem steps_append (draft : Draft) (before after : List DraftStep) :
    draft.steps (before ++ after) = (draft.steps before).steps after :=
  List.foldl_append

theorem modifyLast?_concat {α : Type} (f : α → α) (xs : List α) (x : α) :
    modifyLast? f (xs ++ [x]) = some (xs ++ [f x]) := by
  induction xs with
  | nil => rfl
  | cons y xs ih =>
    cases xs with
    | nil => rfl
    | cons z xs =>
      rw [List.cons_append, List.cons_append, modifyLast?, ← List.cons_append, ih]
      rfl

theorem modifyFirst?_eq {α : Type} (p : α → Bool) (f : α → α) (xs : List α) :
    modifyFirst? p f xs = (xs.findIdx? p).map fun position => xs.modify position f := by
  induction xs with
  | nil => rfl
  | cons x xs ih =>
    rw [modifyFirst?, List.findIdx?_cons]
    split
    · rfl
    · rw [ih]
      cases xs.findIdx? p <;> rfl

/-- The constraints of the argument rules of a draft. -/
def known (draft : Draft) : List Constraint := draft.arguments.map ArgumentDraft.constraint

theorem length_known (draft : Draft) : draft.known.length = draft.arguments.length :=
  List.length_map _

/-- A new rule for a constraint. -/
def fresh (constraint : Constraint) : ArgumentDraft := { constraint }

/-- What a step does to the rule at a position. -/
def touch (moment : Moment) (position : Nat) (plan : ArgumentDraft) : ArgumentDraft :=
  { plan with
    transform? := (moment.gift? position).or plan.transform?
    moveToLast := plan.moveToLast || moment.moves position }

theorem touch_eq_self {moment : Moment} {position : Nat} (hgift : moment.gift? position = none)
    (hmoves : moment.moves position = false) (plan : ArgumentDraft) :
    touch moment position plan = plan := by
  unfold touch
  rw [hgift, hmoves, Option.none_or, Bool.or_false]

theorem mapIdx_eq_self {g : Nat → ArgumentDraft → ArgumentDraft} {plans : List ArgumentDraft}
    (h : ∀ i plan, i < plans.length → g i plan = plan) : plans.mapIdx g = plans := by
  rw [List.mapIdx_eq_iff]
  intro i
  cases hplan : plans[i]? with
  | none => rfl
  | some plan => exact congrArg some (h i plan (List.getElem?_eq_some_iff.1 hplan).1).symm

theorem mapIdx_eq_modify {g : Nat → ArgumentDraft → ArgumentDraft}
    {f : ArgumentDraft → ArgumentDraft} {position : Nat}
    (h : ∀ i plan, g i plan = if position = i then f plan else plan) (plans : List ArgumentDraft) :
    plans.mapIdx g = plans.modify position f := by
  rw [List.mapIdx_eq_iff]
  intro i
  rw [List.getElem?_modify]
  exact congrArg (Option.map · plans[i]?) (funext fun plan => (h i plan).symm)

/-- A modifier changes the rule that was added last. -/
theorem arguments_modify (draft : Draft) (modifier : Modifier) (f : ArgumentDraft → ArgumentDraft)
    {g : Nat → ArgumentDraft → ArgumentDraft}
    (h : ∀ i plan, g i plan = if draft.known.length = i + 1 then f plan else plan) :
    (draft.modify modifier f).arguments = draft.arguments.mapIdx g := by
  rw [length_known] at h
  unfold modify
  rcases List.eq_nil_or_concat' draft.arguments with hnil | ⟨front, last, hconcat⟩
  · rw [hnil]
    rfl
  · rw [hconcat, List.length_append, List.length_singleton] at h
    have hfront : front.mapIdx g = front :=
      mapIdx_eq_self fun i plan hi => by rw [h, if_neg (by omega)]
    rw [hconcat, modifyLast?_concat, List.mapIdx_concat, hfront, h, if_pos rfl]

theorem findIdx?_constraint (draft : Draft) (constraint : Constraint) :
    draft.arguments.findIdx? (fun plan => plan.constraint = constraint) =
      draft.known.idxOf? constraint := by
  unfold known
  rw [List.idxOf?, List.findIdx?_map]
  rfl

theorem idxOf?_concat {known : List Constraint} {constraint : Constraint}
    (h : constraint ∉ known) : (known ++ [constraint]).idxOf? constraint = some known.length := by
  rw [List.idxOf?, List.findIdx?_append, ← List.idxOf?, List.idxOf?_eq_none_iff.2 h]
  simp

/-- A transform for a constraint is given to the first rule for it, which may be a new one. -/
theorem arguments_transformFor (draft : Draft) (constraint : Constraint)
    (transform : LiteralTransform) :
    ∃ added,
      (DraftStep.literalTransformFor constraint transform).register draft.known =
        draft.known ++ added ∧
      (draft.transformFor constraint transform).arguments =
        (draft.arguments ++ added.map fresh).mapIdx
          (touch ⟨draft.known, .literalTransformFor constraint transform⟩) := by
  have htouch : ∀ {position},
      ((DraftStep.literalTransformFor constraint transform).register draft.known).idxOf?
        constraint = some position → ∀ i plan,
          touch ⟨draft.known, .literalTransformFor constraint transform⟩ i plan =
            if position = i then { plan with transform? := some transform } else plan := by
    intro position hposition i plan
    unfold touch Moment.gift? Moment.moves
    simp only [hposition, Option.some.injEq, Bool.or_false]
    split
    · rfl
    · rfl
  unfold transformFor
  simp only [modifyFirst?_eq, findIdx?_constraint]
  by_cases hmem : constraint ∈ draft.known
  · have hregister : (DraftStep.literalTransformFor constraint transform).register draft.known =
        draft.known := if_pos hmem
    rw [hregister] at htouch
    obtain ⟨position, hposition⟩ := Option.isSome_iff_exists.1 (List.isSome_idxOf?.2 hmem)
    refine ⟨[], by rw [hregister, List.append_nil], ?_⟩
    rw [hposition, List.map_nil, List.append_nil, mapIdx_eq_modify (htouch hposition)]
    rfl
  · have hregister : (DraftStep.literalTransformFor constraint transform).register draft.known =
        draft.known ++ [constraint] := if_neg hmem
    rw [hregister] at htouch
    have hnew := htouch (idxOf?_concat hmem)
    refine ⟨[constraint], hregister, ?_⟩
    have hold : draft.arguments.mapIdx
        (touch ⟨draft.known, .literalTransformFor constraint transform⟩) = draft.arguments := by
      refine mapIdx_eq_self fun i plan hi => ?_
      rw [hnew, if_neg (by rw [length_known]; omega)]
    rw [List.idxOf?_eq_none_iff.2 hmem, List.map_singleton, List.mapIdx_concat, hold, hnew,
      if_pos (length_known draft)]
    rfl

/-- What one step does: the rules that it adds come behind the others, and then each rule has done
to it what the step does. -/
theorem arguments_step (draft : Draft) (step : DraftStep) :
    ∃ added, step.register draft.known = draft.known ++ added ∧
      (draft.step step).arguments =
        (draft.arguments ++ added.map fresh).mapIdx (touch ⟨draft.known, step⟩) := by
  have hidle : ∀ {plans : List ArgumentDraft}, (∀ i, Moment.gift? ⟨draft.known, step⟩ i = none) →
      (∀ i, Moment.moves ⟨draft.known, step⟩ i = false) →
        plans = plans.mapIdx (touch ⟨draft.known, step⟩) := by
    intro plans hgift hmoves
    exact (mapIdx_eq_self fun i plan _ => touch_eq_self (hgift i) (hmoves i) plan).symm
  cases step with
  | argument constraint => exact ⟨[constraint], rfl, hidle (fun _ => rfl) (fun _ => rfl)⟩
  | literalTransformFor constraint transform =>
    exact draft.arguments_transformFor constraint transform
  | literalTransform transform =>
    refine ⟨[], (List.append_nil _).symm, ?_⟩
    rw [List.map_nil, List.append_nil]
    refine draft.arguments_modify _ _ fun i plan => ?_
    unfold touch Moment.gift? Moment.moves
    simp only [Bool.or_false]
    split
    · rfl
    · rfl
  | moveToLast =>
    refine ⟨[], (List.append_nil _).symm, ?_⟩
    rw [List.map_nil, List.append_nil]
    refine draft.arguments_modify _ _ fun i plan => ?_
    unfold touch Moment.gift? Moment.moves
    simp only [Option.none_or]
    split
    · simp [*]
    · simp [*]
  | _ =>
    refine ⟨[], (List.append_nil _).symm, ?_⟩
    rw [List.map_nil, List.append_nil]
    exact hidle (fun _ => rfl) (fun _ => rfl)

theorem signature_step (draft : Draft) (step : DraftStep) :
    (draft.step step).signature = draft.signature := by
  cases step with
  | literalTransform transform =>
    rw [Draft.step, modify]
    split <;> rfl
  | moveToLast =>
    rw [Draft.step, modify]
    split <;> rfl
  | literalTransformFor constraint transform =>
    simp only [Draft.step, transformFor]
    split <;> rfl
  | _ => rfl

theorem dangling?_modify (draft : Draft) (modifier : Modifier)
    (f : ArgumentDraft → ArgumentDraft) :
    (draft.modify modifier f).dangling? =
      if draft.known = [] then some modifier else draft.dangling? := by
  unfold modify known
  rcases List.eq_nil_or_concat' draft.arguments with hnil | ⟨front, last, hconcat⟩
  · rw [hnil]
    rfl
  · rw [hconcat, modifyLast?_concat]
    simp

/-- A modifier is dangling if there is no rule when it runs. -/
theorem dangling?_step (draft : Draft) (step : DraftStep) :
    (draft.step step).dangling? =
      if draft.known = [] then step.modifier?.or draft.dangling? else draft.dangling? := by
  cases step with
  | literalTransform transform => exact dangling?_modify draft _ _
  | moveToLast => exact dangling?_modify draft _ _
  | literalTransformFor constraint transform =>
    simp only [Draft.step, transformFor, modifier?, Option.none_or, ite_self]
    split <;> rfl
  | _ => simp [Draft.step, modifier?]

/-! ## All steps -/

/-- What steps make of the rule at a position. -/
def account (steps : List DraftStep) (position : Nat) (constraint : Constraint) :
    ArgumentDraft where
  constraint := constraint
  transform? := (gifts steps position).getLast?
  moveToLast := moved steps position

theorem account_eq_fresh {position : Nat} (h : (registered steps).length ≤ position)
    (constraint : Constraint) : account steps position constraint = fresh constraint := by
  unfold account fresh
  rw [gifts_eq_nil h, moved_eq_false h, List.getLast?_nil]

theorem known_eq (h : draft.arguments = (registered steps).mapIdx (account steps)) :
    draft.known = registered steps := by
  unfold known
  rw [h]
  refine List.ext_getElem? fun i => ?_
  rw [List.getElem?_map, List.getElem?_mapIdx, Option.map_map]
  exact congrFun Option.map_id _

/-- What all steps do: each constraint that they register has its rule, with what the steps about
it made of it. -/
theorem arguments_steps (signature : String) (steps : List DraftStep) :
    (Draft.steps { signature } steps).arguments =
      (registered steps).mapIdx (account steps) := by
  induction steps using List.reverseRecOn with
  | nil => rfl
  | append_singleton steps step ih =>
    have hknown := known_eq ih
    obtain ⟨added, hregister, harguments⟩ := arguments_step (Draft.steps { signature } steps) step
    rw [hknown] at hregister harguments
    -- a rule that is yet to come has nothing done to it so far
    have hadded : (registered steps).mapIdx (account steps) ++ added.map fresh =
        (registered steps ++ added).mapIdx (account steps) := by
      rw [List.mapIdx_append]
      refine congrArg _ (Eq.symm (List.mapIdx_eq_iff.2 fun i => ?_))
      rw [List.getElem?_map]
      refine congrArg (Option.map · added[i]?) (funext fun own => ?_)
      exact (account_eq_fresh (Nat.le_add_left _ _) own).symm
    rw [steps_append, registered_concat, hregister]
    show ((Draft.steps { signature } steps).step step).arguments = _
    rw [harguments, ih, hadded, List.mapIdx_mapIdx, List.mapIdx_eq_mapIdx_iff]
    intro i hi
    unfold account touch
    simp only [Function.comp, gifts_concat, moved_concat]

theorem known_steps (signature : String) (steps : List DraftStep) :
    (Draft.steps { signature } steps).known = registered steps :=
  known_eq (arguments_steps signature steps)

theorem signature_steps (draft : Draft) (steps : List DraftStep) :
    (draft.steps steps).signature = draft.signature := by
  induction steps using List.reverseRecOn with
  | nil => rfl
  | append_singleton steps step ih =>
    rw [steps_append, ← ih]
    exact signature_step _ step

theorem dangling?_steps (signature : String) (steps : List DraftStep) :
    (Draft.steps { signature } steps).dangling? ≠ none ↔ Dangles steps := by
  induction steps using List.reverseRecOn with
  | nil =>
    rw [dangles_iff]
    exact ⟨fun h => absurd rfl h, nofun⟩
  | append_singleton steps step ih =>
    rw [steps_append, dangles_concat_iff, ← ih, ← known_steps signature]
    show ((Draft.steps { signature } steps).step step).dangling? ≠ none ↔ _
    rw [dangling?_step]
    split
    · next hknown => cases step.modifier? <;> simp [hknown]
    · next hknown => simp [hknown]

/-! ## The rule -/

/-- The rule at a position is read from what the steps make of it. -/
theorem exists_account_of_build {signature : String} {rule : Rule}
    (h : (Draft.steps { signature } steps).build = .ok rule) :
    rule.arguments.length = (registered steps).length ∧
      ∀ position argument, rule.arguments[position]? = some argument →
        ∃ constraint, (registered steps)[position]? = some constraint ∧
          readArgument (account steps position constraint) = .ok argument := by
  obtain ⟨_, _, _, harguments, _⟩ := build_eq_ok_iff.1 h
  rw [arguments_steps, List.forall₂_iff_get] at harguments
  obtain ⟨hlength, hread⟩ := harguments
  rw [List.length_mapIdx] at hlength
  refine ⟨hlength.symm, fun position argument hargument => ?_⟩
  obtain ⟨hlt, rfl⟩ := List.getElem?_eq_some_iff.1 hargument
  have hregistered : position < (registered steps).length := hlength ▸ hlt
  have hplan := hread position (by rwa [List.length_mapIdx]) hlt
  rw [List.get_eq_getElem, List.getElem_mapIdx] at hplan
  exact ⟨_, List.getElem?_eq_getElem hregistered, hplan⟩

/-- A rule is what steps make of the argument rule at a position. -/
structure Makes (steps : List DraftStep) (position : Nat) (argument : ArgumentRule) : Prop where
  /-- The constraint is the one that the steps register there. -/
  constraint : (registered steps)[position]? = some argument.selector.constraint
  /-- The pattern of a type constraint has been read. -/
  compiled : argument.selector.constraint.compile = .ok argument.selector
  /-- The arguments move if that was said while the rule was the last one. -/
  moveToLast : argument.moveToLast = true ↔
    ∃ before after, steps = before ++ .moveToLast :: after ∧
      (registered before).length = position + 1
  /-- The transform is the last one that was given to the rule. -/
  transform : argument.transform? = (gifts steps position).getLast?

theorem makes_of_build {signature : String} {rule : Rule}
    (h : (Draft.steps { signature } steps).build = .ok rule) {position : Nat}
    {argument : ArgumentRule} (hargument : rule.arguments[position]? = some argument) :
    Makes steps position argument := by
  obtain ⟨constraint, hconstraint, hread⟩ :=
    (exists_account_of_build h).2 position argument hargument
  obtain ⟨hcompile, htransform, hmoves⟩ := readArgument_eq_ok_iff.1 hread
  have hselector := Constraint.constraint_of_compile hcompile
  exact {
    constraint := hselector ▸ hconstraint
    compiled := hselector ▸ hcompile
    moveToLast := hmoves ▸ moved_iff
    transform := htransform }

theorem Makes.selector_iff {position index : Nat} {argument : ArgumentRule}
    (h : Makes steps position argument) :
    argument.selector = .position index ↔
      (registered steps)[position]? = some (.position index) := by
  rw [h.constraint, Option.some.injEq]
  cases argument.selector with
  | position own => simp [Selector.constraint]
  | type pattern => simp [Selector.constraint]

/-- A step that gives the rule for a position its transform has the last word if no step about the
argument rules follows. -/
theorem resolve?_of_transformFor {signature : String} {rule : Rule} {before after : List DraftStep}
    {index : Nat} {transform : LiteralTransform}
    (hsteps : steps = before ++ .literalTransformFor (.position index) transform :: after)
    (hafter : ∀ step ∈ after, step.constraint? = none ∧ step.modifier? = none)
    (h : (Draft.steps { signature } steps).build = .ok rule) (type? : Option String) :
    ∃ argument, ArgumentRule.resolve? rule.arguments index type? = some argument ∧
      argument.transform? = some transform := by
  obtain ⟨position, hposition⟩ :=
    exists_idxOf?_register (registered before) (.position index) transform
  have hregistered : registered steps =
      (DraftStep.literalTransformFor (.position index) transform).register (registered before) := by
    rw [hsteps, List.append_cons, registered_append_of_idle hafter, registered_concat]
  have hgift : (gifts steps position).getLast? = some transform := by
    rw [hsteps, List.append_cons, gifts_append_of_idle hafter, gifts_concat, Moment.gift?]
    simp only [if_pos hposition, Option.some_or]
  rw [← hregistered, List.idxOf?_eq_some_iff] at hposition
  obtain ⟨hlt, hfirst, hbefore⟩ := hposition
  rw [← (exists_account_of_build h).1] at hlt
  have hargument := List.getElem?_eq_getElem hlt
  have hmakes := makes_of_build h hargument
  refine ⟨_, ArgumentRule.resolve?_eq_some_iff.2 (.position ?_), hmakes.transform.trans hgift⟩
  refine ArgumentRule.isFirst_of_getElem? hargument ?_ fun i hi earlier hearlier hselector => ?_
  · rw [hmakes.selector_iff, ← hfirst]
    exact List.getElem?_eq_getElem _
  · rw [(makes_of_build h hearlier).selector_iff] at hselector
    obtain ⟨_, hconstraint⟩ := List.getElem?_eq_some_iff.1 hselector
    exact hbefore i hi hconstraint

/-- **What the steps of a draft add up to.** With a signature that can be read, a draft is refused
for a dangling modifier exactly when one runs before any step that names a constraint, whatever
steps follow. Otherwise, if it is built, its argument rules are those that the steps register, each
with what the steps about it make of it. If the last step about argument rules gives the rule for a
position its transform, then that is the transform of the rule for the argument there. -/
theorem build_of_steps (signature : String) (steps : List DraftStep)
    (hsignature : ∃ pattern, Signature.compile signature = .ok pattern) :
    ((∃ modifier, (Draft.steps { signature } steps).build = .error (.danglingModifier modifier)) ↔
      Dangles steps) ∧
    ∀ rule, (Draft.steps { signature } steps).build = .ok rule →
      rule.arguments.length = (registered steps).length ∧
      (∀ position argument, rule.arguments[position]? = some argument →
        Makes steps position argument) ∧
      ∀ before index transform after,
        steps = before ++ .literalTransformFor (.position index) transform :: after →
        (∀ step ∈ after, step.constraint? = none ∧ step.modifier? = none) →
          ∀ type?, ∃ argument, ArgumentRule.resolve? rule.arguments index type? = some argument ∧
            argument.transform? = some transform := by
  constructor
  · simp only [build_eq_danglingModifier_iff, signature_steps, hsignature, true_and]
    rw [← dangling?_steps signature, Option.ne_none_iff_exists']
  · intro rule h
    refine ⟨(exists_account_of_build h).1, fun _ _ hargument => makes_of_build h hargument, ?_⟩
    intro before index transform after hsteps hafter type?
    exact resolve?_of_transformFor hsteps hafter h type?

/-- The first rule is for the second argument and gets its transform last, behind that of the rule
for the first argument. -/
def mixedSteps : List DraftStep :=
  [.argument (.position 1), .moveToLast, .literalTransformFor (.position 0) fun _ => .int 5,
    .literalTransform fun _ => .int 6, .literalTransformFor (.position 1) fun _ => .int 7,
    .retargetToStatic "U"]

/-- The second argument moves and becomes `7`, and the first one becomes `6`. To move arguments
before there is a rule for any is refused. -/
theorem build_of_steps_mixed :
    ∃ rule, (Draft.steps { signature := "T *(..)" } mixedSteps).build = .ok rule ∧
      (∃ argument, rule.arguments[0]? = some argument ∧ argument.moveToLast = true) ∧
      (∃ argument, rule.arguments[1]? = some argument ∧
        argument.transform? = some fun _ => .int 6) ∧
      (∀ type?, ∃ argument, ArgumentRule.resolve? rule.arguments 1 type? = some argument ∧
        argument.transform? = some fun _ => .int 7) ∧
      ∃ modifier, (Draft.steps { signature := "T *(..)" }
        [.moveToLast, .argument (.position 0)]).build = .error (.danglingModifier modifier) := by
  have hsignature : ∃ pattern, Signature.compile "T *(..)" = .ok pattern := ⟨_, rfl⟩
  obtain ⟨rule, hrule⟩ :
      ∃ rule, (Draft.steps { signature := "T *(..)" } mixedSteps).build = .ok rule := ⟨_, rfl⟩
  obtain ⟨hlength, hmakes, hlast⟩ := (build_of_steps "T *(..)" mixedSteps hsignature).2 rule hrule
  replace hlength : rule.arguments.length = 2 := hlength
  refine ⟨rule, hrule, ?_, ?_, ?_, ?_⟩
  · have hfirst := List.getElem?_eq_getElem (show 0 < rule.arguments.length by omega)
    exact ⟨_, hfirst, (hmakes 0 _ hfirst).moveToLast.2 ⟨[.argument (.position 1)], _, rfl, rfl⟩⟩
  · have hsecond := List.getElem?_eq_getElem (show 1 < rule.arguments.length by omega)
    exact ⟨_, hsecond, (hmakes 1 _ hsecond).transform⟩
  · exact hlast (mixedSteps.take 4) 1 _ [.retargetToStatic "U"] rfl
      (List.forall_mem_singleton.2 ⟨rfl, rfl⟩)
  · exact (build_of_steps "T *(..)" [.moveToLast, .argument (.position 0)] hsignature).1.2
      ⟨[], .moveToLast, [.argument (.position 0)], rfl, Option.some_ne_none _,
        List.forall_mem_nil _⟩

end Draft

end CallRefactor
