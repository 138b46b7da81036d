import CallRefactor.Config.Basic
import CallRefactor.Proofs.Rule.Build
import CallRefactor.Proofs.Rule.Steps

/-!
# The rule of a configuration

A configuration is turned into the steps of a draft, and the draft is built. So that it has a rule,
each entry for arguments has to select by position or by type and not by both, the patterns have to
be readable, and there is one target at most. Then the rule says what the configuration says, entry
by entry. Otherwise the error tells of the first thing that is wrong: entries are looked at before
the signature, and the type patterns of entries after everything else. No step of a configuration is
a modifier without a rule in front of it.

Main statement: `Config.build_iff`.
-/

namespace CallRefactor

/-! ## Entries -/

namespace ArgumentConfig

variable {entry : ArgumentConfig} {error : RuleError}

/-- An entry selects by position or by type, and not by both. -/
def SelectsOnce (entry : ArgumentConfig) : Prop :=
  entry.position? ≠ none ∧ entry.type? = none ∨ entry.position? = none ∧ entry.type? ≠ none

/-- What is wrong with an entry that does not select once. -/
inductive Misselects (entry : ArgumentConfig) : RuleError → Prop where
  /-- It selects by position and by type. -/
  | twice {position : Nat} {type : String} (hposition : entry.position? = some position)
    (htype : entry.type? = some type) : Misselects entry (.twoSelectors position type)
  /-- It selects nothing. -/
  | never (hposition : entry.position? = none) (htype : entry.type? = none) :
    Misselects entry .noSelector

/-- The type pattern of an entry can be read, if it has one. -/
def IsReadable (entry : ArgumentConfig) : Prop :=
  ∀ type, entry.type? = some type → ∃ pattern, TypePattern.compile type = .ok pattern

/-- The argument rule that an entry describes: one for what it selects, which moves the arguments if
the entry says so and has no transform. -/
inductive Describes (entry : ArgumentConfig) : ArgumentRule → Prop where
  /-- A rule by position. -/
  | position {index : Nat} (hposition : entry.position? = some index) (htype : entry.type? = none) :
    Describes entry ⟨.position index, none, entry.moveToLast⟩
  /-- A rule by type. -/
  | type {type : String} {pattern : TypePattern} (hposition : entry.position? = none)
    (htype : entry.type? = some type) (hpattern : TypePattern.compile type = .ok pattern) :
    Describes entry ⟨.type pattern, none, entry.moveToLast⟩

theorem exists_constraint_iff :
    (∃ constraint, entry.constraint = .ok constraint) ↔ entry.SelectsOnce := by
  unfold constraint SelectsOnce
  cases entry.position? <;> cases entry.type? <;> simp

theorem constraint_eq_type_iff {type : String} (h : entry.SelectsOnce) :
    entry.constraint = .ok (.type type) ↔ entry.type? = some type := by
  unfold constraint
  rcases h with ⟨hposition, hnone⟩ | ⟨hnone, htype⟩
  · obtain ⟨index, hindex⟩ := Option.ne_none_iff_exists'.1 hposition
    simp [hindex, hnone]
  · obtain ⟨own, hown⟩ := Option.ne_none_iff_exists'.1 htype
    simp [hnone, hown]

theorem constraint_eq_error_iff : entry.constraint = .error error ↔ entry.Misselects error := by
  constructor
  · intro h
    unfold constraint at h
    split at h
    · cases h
    · cases h
    · next hposition htype =>
      obtain rfl := Except.error.inj h
      exact .twice hposition htype
    · next hposition htype =>
      obtain rfl := Except.error.inj h
      exact .never hposition htype
  · intro h
    unfold constraint
    cases h with
    | twice hposition htype => rw [hposition, htype]
    | never hposition htype => rw [hposition, htype]

theorem Describes.selectsOnce {argument : ArgumentRule} (h : entry.Describes argument) :
    entry.SelectsOnce := by
  cases h with
  | position hposition htype => exact .inl ⟨by simp [hposition], htype⟩
  | type hposition htype _ => exact .inr ⟨hposition, by simp [htype]⟩

/-- The argument rule that an entry is turned into, through a draft of it. -/
def compile (entry : ArgumentConfig) : Except RuleError ArgumentRule := do
  let constraint ← entry.constraint
  Draft.readArgument { constraint, moveToLast := entry.moveToLast }

theorem compile_eq_ok_iff {argument : ArgumentRule} :
    entry.compile = .ok argument ↔ entry.Describes argument := by
  constructor
  · intro h
    obtain ⟨constraint, hconstraint, hread⟩ := bind_eq_ok_iff.1 h
    obtain ⟨selector, hselector, rfl⟩ := map_eq_ok_iff.1 hread
    unfold ArgumentConfig.constraint at hconstraint
    split at hconstraint
    · next hposition htype =>
      obtain rfl := Except.ok.inj hconstraint
      obtain rfl := Except.ok.inj hselector
      exact .position hposition htype
    · next hposition htype =>
      obtain rfl := Except.ok.inj hconstraint
      obtain ⟨pattern, hpattern, rfl⟩ := map_eq_ok_iff.1 hselector
      exact .type hposition htype hpattern
    · cases hconstraint
    · cases hconstraint
  · intro h
    unfold compile ArgumentConfig.constraint
    cases h with
    | position hposition htype =>
      rw [hposition, htype]
      rfl
    | type hposition htype hpattern =>
      rw [hposition, htype]
      exact map_eq_ok_iff.2 ⟨_, map_eq_ok_iff.2 ⟨_, hpattern, rfl⟩, rfl⟩

theorem compile_eq_error_iff (h : entry.SelectsOnce) :
    entry.compile = .error error ↔
      ∃ type, entry.type? = some type ∧ TypePattern.compile type = .error error := by
  obtain ⟨constraint, hconstraint⟩ := exists_constraint_iff.2 h
  have hcompile : entry.compile =
      Draft.readArgument { constraint, moveToLast := entry.moveToLast } := by
    unfold compile
    rw [hconstraint]
    rfl
  rw [hcompile, Draft.readArgument_eq_error_iff, Constraint.compile_eq_error_iff]
  refine exists_congr fun type => and_congr_left fun _ => ?_
  rw [← constraint_eq_type_iff h, hconstraint, Except.ok.injEq]

theorem exists_compile_iff (h : entry.SelectsOnce) :
    (∃ argument, entry.compile = .ok argument) ↔ entry.IsReadable := by
  constructor
  · rintro ⟨argument, hargument⟩ type htype
    cases compile_eq_ok_iff.1 hargument with
    | position _ hnone => cases hnone.symm.trans htype
    | type _ hsome hpattern =>
      obtain rfl := Option.some.inj (hsome.symm.trans htype)
      exact ⟨_, hpattern⟩
  · intro hread
    rcases h with ⟨hposition, hnone⟩ | ⟨hnone, htype⟩
    · obtain ⟨index, hindex⟩ := Option.ne_none_iff_exists'.1 hposition
      exact ⟨_, compile_eq_ok_iff.2 (.position hindex hnone)⟩
    · obtain ⟨type, htype⟩ := Option.ne_none_iff_exists'.1 htype
      obtain ⟨pattern, hpattern⟩ := hread type htype
      exact ⟨_, compile_eq_ok_iff.2 (.type hnone htype hpattern)⟩

/-- Entries are read up to the first one whose type cannot be read. -/
theorem mapM_compile_eq_error_iff {entries : List ArgumentConfig}
    (h : ∀ entry ∈ entries, entry.SelectsOnce) :
    entries.mapM compile = .error error ↔
      ∃ before entry after type, entries = before ++ entry :: after ∧
        (∀ earlier ∈ before, earlier.IsReadable) ∧ entry.type? = some type ∧
          TypePattern.compile type = .error error := by
  rw [mapM_eq_error_iff]
  constructor
  · rintro ⟨before, entry, after, rfl, hbefore, hentry⟩
    obtain ⟨hselect, hselects, _⟩ := List.forall_mem_append.1 h |>.imp_right List.forall_mem_cons.1
    obtain ⟨type, htype, herror⟩ := (compile_eq_error_iff hselects).1 hentry
    exact ⟨before, entry, after, type, rfl,
      fun earlier hmem => (exists_compile_iff (hselect earlier hmem)).1 (hbefore earlier hmem),
      htype, herror⟩
  · rintro ⟨before, entry, after, type, rfl, hbefore, htype, herror⟩
    obtain ⟨hselect, hselects, _⟩ := List.forall_mem_append.1 h |>.imp_right List.forall_mem_cons.1
    exact ⟨before, entry, after, rfl,
      fun earlier hmem => (exists_compile_iff (hselect earlier hmem)).2 (hbefore earlier hmem),
      (compile_eq_error_iff hselects).2 ⟨type, htype, herror⟩⟩

/-- The argument rule that an entry becomes in a draft. -/
def Plans (entry : ArgumentConfig) (plan : ArgumentDraft) : Prop :=
  ∃ constraint, entry.constraint = .ok constraint ∧
    plan = { constraint, moveToLast := entry.moveToLast }

theorem Plans.compile_eq {plan : ArgumentDraft} (h : entry.Plans plan) :
    entry.compile = Draft.readArgument plan := by
  obtain ⟨constraint, hconstraint, rfl⟩ := h
  unfold compile
  rw [hconstraint]
  rfl

theorem exists_plans_iff {entries : List ArgumentConfig} :
    (∃ plans, List.Forall₂ Plans entries plans) ↔ ∀ entry ∈ entries, entry.SelectsOnce := by
  rw [exists_forall₂_iff]
  refine forall₂_congr fun entry _ => ?_
  rw [← exists_constraint_iff]
  constructor
  · rintro ⟨_, constraint, hconstraint, _⟩
    exact ⟨constraint, hconstraint⟩
  · rintro ⟨constraint, hconstraint⟩
    exact ⟨_, constraint, hconstraint, rfl⟩

theorem exists_steps_iff : (∃ steps, entry.steps = .ok steps) ↔ entry.SelectsOnce := by
  rw [← exists_constraint_iff]
  constructor
  · rintro ⟨steps, h⟩
    obtain ⟨constraint, hconstraint, _⟩ := map_eq_ok_iff.1 h
    exact ⟨constraint, hconstraint⟩
  · rintro ⟨constraint, hconstraint⟩
    exact ⟨_, map_eq_ok_iff.2 ⟨constraint, hconstraint, rfl⟩⟩

/-- The steps of an entry add its argument rule and change nothing else. -/
theorem Plans.exists_steps {plan : ArgumentDraft} (h : entry.Plans plan) :
    ∃ steps, entry.steps = .ok steps ∧
      ∀ draft : Draft, draft.steps steps =
        { draft with arguments := draft.arguments ++ [plan] } := by
  obtain ⟨constraint, hconstraint, rfl⟩ := h
  refine ⟨_, map_eq_ok_iff.2 ⟨constraint, hconstraint, rfl⟩, fun draft => ?_⟩
  cases entry.moveToLast with
  | false => rfl
  | true =>
    show (draft.step (.argument constraint)).modify _ _ = _
    unfold Draft.modify Draft.step
    simp only [Draft.modifyLast?_concat]

theorem exists_steps_of_plans {entries : List ArgumentConfig} {plans : List ArgumentDraft}
    (h : List.Forall₂ Plans entries plans) :
    ∃ lists, entries.mapM steps = .ok lists ∧
      ∀ draft : Draft, draft.steps lists.flatten =
        { draft with arguments := draft.arguments ++ plans } := by
  induction h with
  | nil => exact ⟨[], rfl, fun draft => by rw [List.append_nil]; rfl⟩
  | cons hplan _ ih =>
    obtain ⟨steps, hsteps, hstep⟩ := hplan.exists_steps
    obtain ⟨lists, hlists, hrun⟩ := ih
    refine ⟨steps :: lists, ?_, fun draft => ?_⟩
    · rw [mapM_eq_ok_iff] at hlists ⊢
      exact .cons hsteps hlists
    · rw [List.flatten_cons, Draft.steps_append, hstep, hrun, List.append_assoc,
        List.singleton_append]

end ArgumentConfig

/-! ## Drafts -/

namespace Config

variable {config : Config} {error : RuleError} {plans : List ArgumentDraft} {draft : Draft}

/-- The draft of a configuration with the given argument rules. -/
def drafted (config : Config) (plans : List ArgumentDraft) : Draft where
  signature := config.signature
  rename? := config.rename?
  reorder? := config.reorder?
  arguments := plans
  targetClass? := config.targetClass?
  targetVariable? := config.targetVariable?

theorem draft_of_plans (h : List.Forall₂ ArgumentConfig.Plans config.arguments plans) :
    config.draft = .ok (config.drafted plans) := by
  obtain ⟨lists, hlists, hrun⟩ := ArgumentConfig.exists_steps_of_plans h
  refine bind_eq_ok_iff.2 ⟨lists, hlists, congrArg Except.ok ?_⟩
  unfold drafted
  simp only [Draft.steps_append, hrun]
  cases config.rename? <;> cases config.reorder? <;> cases config.targetClass? <;>
    cases config.targetVariable? <;> rfl

theorem selectsOnce_of_draft (h : config.draft = .ok draft) :
    ∀ entry ∈ config.arguments, entry.SelectsOnce := by
  obtain ⟨lists, hlists, _⟩ := bind_eq_ok_iff.1 h
  intro entry hentry
  exact ArgumentConfig.exists_steps_iff.1 (exists_mapM_eq_ok_iff.1 ⟨lists, hlists⟩ entry hentry)

theorem draft_eq_error_iff :
    config.draft = .error error ↔
      ∃ before entry after, config.arguments = before ++ entry :: after ∧
        (∀ earlier ∈ before, earlier.SelectsOnce) ∧ entry.Misselects error := by
  have hmapM : config.draft = .error error ↔
      config.arguments.mapM ArgumentConfig.steps = .error error := by
    constructor
    · intro h
      rcases bind_eq_error_iff.1 h with h | ⟨_, _, ⟨⟩⟩
      exact h
    · intro h
      exact bind_eq_error_iff.2 (.inl h)
  have hsteps : ∀ entry : ArgumentConfig,
      entry.steps = .error error ↔ entry.Misselects error :=
    fun entry => map_eq_error_iff.trans ArgumentConfig.constraint_eq_error_iff
  rw [hmapM, mapM_eq_error_iff]
  simp only [ArgumentConfig.exists_steps_iff, hsteps]

/-! ## Rules -/

/-- The rule that a configuration describes. -/
structure Describes (config : Config) (rule : Rule) : Prop where
  /-- The signature has been read. -/
  signature : Signature.compile config.signature = .ok rule.signature
  /-- The new name is the one of the configuration. -/
  rename : rule.rename? = config.rename?
  /-- The new order is the one of the configuration. -/
  reorder : rule.reorder? = config.reorder?
  /-- The calls go to a class if the configuration says so. -/
  targetClass : ∀ className,
    rule.target? = some (.onClass className) ↔ config.targetClass? = some className
  /-- The calls go to a variable if the configuration says so. -/
  targetVariable : ∀ name,
    rule.target? = some (.onVariable name) ↔ config.targetVariable? = some name
  /-- The argument rules are those that the entries describe, one by one. -/
  arguments : List.Forall₂ ArgumentConfig.Describes config.arguments rule.arguments

theorem Describes.selectsOnce {rule : Rule} (h : config.Describes rule) :
    ∀ entry ∈ config.arguments, entry.SelectsOnce := by
  intro entry hentry
  obtain ⟨_, hargument⟩ := exists_forall₂_iff.1 ⟨_, h.arguments⟩ entry hentry
  exact hargument.selectsOnce

/-- The first thing that is wrong with a configuration. -/
inductive FirstFault (config : Config) : RuleError → Prop where
  /-- An entry does not select once, and all entries in front of it do. -/
  | selector {before after : List ArgumentConfig} {entry : ArgumentConfig} {error : RuleError}
    (hsplit : config.arguments = before ++ entry :: after)
    (hbefore : ∀ earlier ∈ before, earlier.SelectsOnce) (h : entry.Misselects error) :
    FirstFault config error
  /-- All entries select once, and the signature cannot be read. -/
  | signature {error : RuleError} (hentries : ∀ entry ∈ config.arguments, entry.SelectsOnce)
    (h : Signature.compile config.signature = .error error) : FirstFault config error
  /-- All of that is right, and there are two targets. -/
  | targets {className name : String} (hentries : ∀ entry ∈ config.arguments, entry.SelectsOnce)
    (hsignature : ∃ signature, Signature.compile config.signature = .ok signature)
    (hclass : config.targetClass? = some className)
    (hvariable : config.targetVariable? = some name) :
    FirstFault config (.twoTargets className name)
  /-- All of that is right, and the type of an entry cannot be read, while those of all entries in
  front of it can. -/
  | type {before after : List ArgumentConfig} {entry : ArgumentConfig} {type : String}
    {error : RuleError} (hentries : ∀ entry ∈ config.arguments, entry.SelectsOnce)
    (hsignature : ∃ signature, Signature.compile config.signature = .ok signature)
    (htargets : config.targetClass? = none ∨ config.targetVariable? = none)
    (hsplit : config.arguments = before ++ entry :: after)
    (hbefore : ∀ earlier ∈ before, earlier.IsReadable) (htype : entry.type? = some type)
    (h : TypePattern.compile type = .error error) : FirstFault config error

/-- Where all entries select once, it is a draft with an argument rule for each that is built. -/
theorem exists_drafted (h : ∀ entry ∈ config.arguments, entry.SelectsOnce) :
    ∃ plans, config.build = (config.drafted plans).build ∧
      (config.drafted plans).arguments.mapM Draft.readArgument =
        config.arguments.mapM ArgumentConfig.compile := by
  obtain ⟨plans, hplans⟩ := ArgumentConfig.exists_plans_iff.2 h
  refine ⟨plans, ?_, (mapM_congr_forall₂ (hplans.imp fun _ _ hplan => hplan.compile_eq)).symm⟩
  unfold build
  rw [draft_of_plans hplans]
  rfl

theorem build_eq_ok_iff {rule : Rule} : config.build = .ok rule ↔ config.Describes rule := by
  have hmap : config.arguments.mapM ArgumentConfig.compile = .ok rule.arguments ↔
      List.Forall₂ ArgumentConfig.Describes config.arguments rule.arguments := by
    simp only [mapM_eq_ok_iff, ArgumentConfig.compile_eq_ok_iff]
  constructor
  · intro h
    obtain ⟨draft, hdraft, _⟩ := bind_eq_ok_iff.1 h
    obtain ⟨plans, hbuild, hplans⟩ := exists_drafted (selectsOnce_of_draft hdraft)
    rw [hbuild, Draft.build_eq_ok_iff, ← mapM_eq_ok_iff, hplans, hmap] at h
    obtain ⟨hsignature, _, htarget, harguments, hrename, hreorder⟩ := h
    obtain ⟨hclass, hvariable⟩ := Draft.readTarget_eq_ok_iff.1 htarget
    exact ⟨hsignature, hrename, hreorder, hclass, hvariable, harguments⟩
  · intro h
    obtain ⟨plans, hbuild, hplans⟩ := exists_drafted h.selectsOnce
    rw [hbuild, Draft.build_eq_ok_iff, ← mapM_eq_ok_iff, hplans, hmap]
    exact ⟨h.signature, rfl, Draft.readTarget_eq_ok_iff.2 ⟨h.targetClass, h.targetVariable⟩,
      h.arguments, h.rename, h.reorder⟩

theorem exists_build_iff :
    (∃ rule, config.build = .ok rule) ↔
      (∀ entry ∈ config.arguments, entry.SelectsOnce) ∧
      (∃ signature, Signature.compile config.signature = .ok signature) ∧
      (config.targetClass? = none ∨ config.targetVariable? = none) ∧
      ∀ entry ∈ config.arguments, entry.IsReadable := by
  simp only [build_eq_ok_iff]
  constructor
  · rintro ⟨rule, h⟩
    have hselect := h.selectsOnce
    have htarget : (config.drafted []).readTarget = .ok rule.target? :=
      Draft.readTarget_eq_ok_iff.2 ⟨h.targetClass, h.targetVariable⟩
    refine ⟨hselect, ⟨_, h.signature⟩, Draft.exists_readTarget_iff.1 ⟨_, htarget⟩, ?_⟩
    intro entry hentry
    obtain ⟨argument, hargument⟩ := exists_forall₂_iff.1 ⟨_, h.arguments⟩ entry hentry
    exact (ArgumentConfig.exists_compile_iff (hselect entry hentry)).1
      ⟨argument, ArgumentConfig.compile_eq_ok_iff.2 hargument⟩
  · rintro ⟨hselect, ⟨signature, hsignature⟩, htargets, hreadable⟩
    obtain ⟨target?, htarget⟩ := Draft.exists_readTarget_iff.2
      (show (config.drafted []).targetClass? = none ∨ (config.drafted []).targetVariable? = none
        from htargets)
    obtain ⟨hclass, hvariable⟩ := Draft.readTarget_eq_ok_iff.1 htarget
    have hentries : ∀ entry ∈ config.arguments, ∃ argument, entry.Describes argument := by
      intro entry hentry
      obtain ⟨argument, hargument⟩ :=
        (ArgumentConfig.exists_compile_iff (hselect entry hentry)).2 (hreadable entry hentry)
      exact ⟨argument, ArgumentConfig.compile_eq_ok_iff.1 hargument⟩
    obtain ⟨arguments, harguments⟩ := exists_forall₂_iff.2 hentries
    exact ⟨⟨signature, config.rename?, config.reorder?, arguments, target?⟩, hsignature, rfl, rfl,
      hclass, hvariable, harguments⟩

theorem build_eq_error_iff_of_selectsOnce (h : ∀ entry ∈ config.arguments, entry.SelectsOnce) :
    config.build = .error error ↔
      Signature.compile config.signature = .error error ∨
      (∃ signature, Signature.compile config.signature = .ok signature) ∧
        ((∃ className name, config.targetClass? = some className ∧
            config.targetVariable? = some name ∧ error = .twoTargets className name) ∨
          (config.targetClass? = none ∨ config.targetVariable? = none) ∧
            config.arguments.mapM ArgumentConfig.compile = .error error) := by
  obtain ⟨plans, hbuild, hplans⟩ := exists_drafted h
  have hmodifiers : (config.drafted plans).checkModifiers ≠ .error error := nofun
  rw [hbuild, Draft.build_eq_error_iff, Draft.readTarget_eq_error_iff,
    Draft.exists_readTarget_iff, ← hplans]
  simp only [hmodifiers, false_or]
  exact or_congr_right (and_congr_right fun _ => and_iff_right rfl)

/-- The error of a configuration is about the first thing that is wrong with it. -/
theorem build_eq_error_iff : config.build = .error error ↔ config.FirstFault error := by
  constructor
  · intro h
    rcases bind_eq_error_iff.1 h with hdraft | ⟨draft, hdraft, _⟩
    · obtain ⟨before, entry, after, hsplit, hbefore, hentry⟩ := draft_eq_error_iff.1 hdraft
      exact .selector hsplit hbefore hentry
    have hentries := selectsOnce_of_draft hdraft
    rcases (build_eq_error_iff_of_selectsOnce hentries).1 h with h | ⟨hsignature, h | ⟨htargets, h⟩⟩
    · exact .signature hentries h
    · obtain ⟨className, name, hclass, hvariable, rfl⟩ := h
      exact .targets hentries hsignature hclass hvariable
    · obtain ⟨before, entry, after, type, hsplit, hbefore, htype, herror⟩ :=
        (ArgumentConfig.mapM_compile_eq_error_iff hentries).1 h
      exact .type hentries hsignature htargets hsplit hbefore htype herror
  · intro h
    cases h with
    | selector hsplit hbefore hentry =>
      exact bind_eq_error_iff.2 (.inl (draft_eq_error_iff.2 ⟨_, _, _, hsplit, hbefore, hentry⟩))
    | signature hentries h => exact (build_eq_error_iff_of_selectsOnce hentries).2 (.inl h)
    | targets hentries hsignature hclass hvariable =>
      exact (build_eq_error_iff_of_selectsOnce hentries).2
        (.inr ⟨hsignature, .inl ⟨_, _, hclass, hvariable, rfl⟩⟩)
    | type hentries hsignature htargets hsplit hbefore htype h =>
      exact (build_eq_error_iff_of_selectsOnce hentries).2 (.inr ⟨hsignature, .inr ⟨htargets,
        (ArgumentConfig.mapM_compile_eq_error_iff hentries).2
          ⟨_, _, _, _, hsplit, hbefore, htype, h⟩⟩⟩)

theorem FirstFault.ne_danglingModifier (h : config.FirstFault error) (modifier : Modifier) :
    error ≠ .danglingModifier modifier := by
  rintro rfl
  cases h with
  | selector _ _ h => cases h
  | signature _ h =>
    obtain ⟨_, hcause⟩ := Signature.compile_eq_error h
    cases hcause
  | type _ _ _ _ _ _ h =>
    obtain ⟨_, hcause⟩ := TypePattern.compile_eq_error h
    cases hcause

/-- **What configurations are built to.** A configuration is built exactly when every entry selects
once, the signature can be read, there is one target at most and the types of all entries can be
read. The rule is then the one that the configuration describes, entry by entry. Otherwise the error
is about the first of these that is wrong, in this order, and never about a dangling modifier. -/
theorem build_iff (config : Config) :
    ((∃ rule, config.build = .ok rule) ↔
      (∀ entry ∈ config.arguments, entry.SelectsOnce) ∧
      (∃ signature, Signature.compile config.signature = .ok signature) ∧
      (config.targetClass? = none ∨ config.targetVariable? = none) ∧
      ∀ entry ∈ config.arguments, entry.IsReadable) ∧
    (∀ rule, config.build = .ok rule ↔ config.Describes rule) ∧
    (∀ error, config.build = .error error ↔ config.FirstFault error) ∧
    ∀ modifier, config.build ≠ .error (.danglingModifier modifier) := by
  refine ⟨exists_build_iff, fun _ => build_eq_ok_iff, fun _ => build_eq_error_iff, ?_⟩
  intro modifier h
  exact (build_eq_error_iff.1 h).ne_danglingModifier modifier rfl

/-- A signature without a name and two targets are looked at after the entries. -/
example :
    build {
      signature := "T"
      arguments := [{ position? := some 0 }, {}]
      targetClass? := some "U"
      targetVariable? := some "v" } = .error .noSelector := rfl

end Config

end CallRefactor
