import CallRefactor.Rule.Argument

/-!
# The rule for an argument

Rules by position and rules by type are two lists of their own, however they are mixed. The first
rule for the position of an argument is the rule for it. Where there is none and the type of the
argument is known, it is the first rule whose pattern fits the type. So to mix the two lists in
another way changes nothing, and rules added at the end count only where none was found before, or
where they are for the very position of an argument that had a rule by type.

Main statement: `resolve?_of_kinds`.
-/

namespace CallRefactor

/-- Whether a selector is a position. -/
def Selector.isPosition : Selector → Bool
  | .position _ => true
  | .type _ => false

namespace ArgumentRule

variable {rules more : List ArgumentRule} {rule : ArgumentRule} {index : Nat}
  {type? : Option String}

/-! ## Kinds of rules -/

/-- The rules by position, in order. -/
def positionRules (rules : List ArgumentRule) : List ArgumentRule :=
  rules.filter fun rule => rule.selector.isPosition

/-- The rules by type, in order. -/
def typeRules (rules : List ArgumentRule) : List ArgumentRule :=
  rules.filter fun rule => !rule.selector.isPosition

/-- A rule has a type pattern that fits a type. -/
def FitsType (type : String) (rule : ArgumentRule) : Prop :=
  ∃ pattern, rule.selector = .type pattern ∧ pattern.matchesType type.toList = true

theorem isForPosition_iff : isForPosition index rule = true ↔ rule.selector = .position index := by
  unfold isForPosition
  cases rule.selector with
  | position own => simp
  | type pattern => simp

theorem isForType_iff :
    isForType type? rule = true ↔ ∃ type, type? = some type ∧ rule.FitsType type := by
  unfold isForType FitsType
  cases rule.selector with
  | position own => simp
  | type pattern => cases type? <;> simp

/-! ## First rules -/

/-- A rule is the first one with a property. -/
def IsFirst (P : ArgumentRule → Prop) (rules : List ArgumentRule) (rule : ArgumentRule) : Prop :=
  P rule ∧ ∃ before after, rules = before ++ rule :: after ∧ ∀ earlier ∈ before, ¬ P earlier

/-- A rule with a property is the first one if no rule in front of it has the property. -/
theorem isFirst_of_getElem? {P : ArgumentRule → Prop} {position : Nat}
    (hrule : rules[position]? = some rule) (h : P rule)
    (hbefore : ∀ i, i < position → ∀ earlier, rules[i]? = some earlier → ¬ P earlier) :
    IsFirst P rules rule := by
  obtain ⟨hlt, rfl⟩ := List.getElem?_eq_some_iff.1 hrule
  refine ⟨h, rules.take position, rules.drop (position + 1), ?_, ?_⟩
  · rw [← List.drop_eq_getElem_cons hlt, List.take_append_drop]
  · intro earlier hmem
    obtain ⟨i, hi, rfl⟩ := List.mem_take_iff_getElem.1 hmem
    exact hbefore i (by omega) _ (List.getElem?_eq_getElem (by omega))

/-- Which rule is the one for an argument. -/
inductive Resolves (rules : List ArgumentRule) (index : Nat) :
    Option String → ArgumentRule → Prop where
  /-- The first rule for the position of the argument. -/
  | position {type? : Option String} {rule : ArgumentRule}
    (h : IsFirst (fun rule => rule.selector = .position index) rules rule) :
    Resolves rules index type? rule
  /-- Without one, the first rule that fits the type of the argument. -/
  | type {type : String} {rule : ArgumentRule}
    (hnone : ∀ other ∈ rules, other.selector ≠ .position index)
    (h : IsFirst (FitsType type) rules rule) : Resolves rules index (some type) rule

theorem find?_isForPosition_iff :
    rules.find? (isForPosition index) = some rule ↔
      IsFirst (fun rule => rule.selector = .position index) rules rule := by
  simp only [List.find?_eq_some_iff_append, IsFirst, Bool.not_eq_true', Bool.eq_false_iff,
    ne_eq, isForPosition_iff]

theorem find?_isForPosition_eq_none_iff :
    rules.find? (isForPosition index) = none ↔
      ∀ other ∈ rules, other.selector ≠ .position index := by
  simp only [List.find?_eq_none, isForPosition_iff, ne_eq]

theorem find?_isForType_iff :
    rules.find? (isForType type?) = some rule ↔
      ∃ type, type? = some type ∧ IsFirst (FitsType type) rules rule := by
  cases type? with
  | none => simp [List.find?_eq_some_iff_append, isForType_iff]
  | some type =>
    simp only [List.find?_eq_some_iff_append, IsFirst, Bool.not_eq_true', Bool.eq_false_iff,
      ne_eq, isForType_iff, Option.some.injEq, exists_eq_left']

theorem resolve?_eq_some_iff :
    resolve? rules index type? = some rule ↔ Resolves rules index type? rule := by
  unfold resolve?
  rw [Option.or_eq_some_iff, find?_isForPosition_iff, find?_isForPosition_eq_none_iff,
    find?_isForType_iff]
  constructor
  · rintro (h | ⟨hnone, type, rfl, h⟩)
    · exact .position h
    · exact .type hnone h
  · intro h
    cases h with
    | position h => exact .inl h
    | type hnone h => exact .inr ⟨hnone, _, rfl, h⟩

theorem resolve?_eq_none_iff :
    resolve? rules index type? = none ↔
      (∀ other ∈ rules, other.selector ≠ .position index) ∧
        ∀ type, type? = some type → ∀ other ∈ rules, ¬ other.FitsType type := by
  unfold resolve?
  rw [Option.or_eq_none_iff, find?_isForPosition_eq_none_iff, List.find?_eq_none]
  simp only [isForType_iff, not_exists, not_and]
  exact and_congr_right fun _ => ⟨fun h type ht other ho => h other ho type ht,
    fun h other ho type ht => h type ht other ho⟩

/-! ## Rules of the two kinds -/

theorem find?_filter_of_imp {p q : ArgumentRule → Bool} (h : ∀ rule, q rule = true → p rule = true)
    (rules : List ArgumentRule) : (rules.filter p).find? q = rules.find? q := by
  rw [List.find?_filter]
  congr 1
  funext rule
  cases hq : q rule with
  | false => simp
  | true => simp [h rule hq]

/-- Each kind of rule is searched on its own. -/
theorem resolve?_eq_kinds (rules : List ArgumentRule) (index : Nat) (type? : Option String) :
    resolve? rules index type? =
      ((positionRules rules).find? (isForPosition index)).or
        ((typeRules rules).find? (isForType type?)) := by
  unfold resolve? positionRules typeRules
  rw [find?_filter_of_imp, find?_filter_of_imp]
  · intro rule h
    obtain ⟨_, _, pattern, hselector, _⟩ := isForType_iff.1 h
    rw [hselector]
    rfl
  · intro rule h
    rw [isForPosition_iff.1 h]
    rfl

/-! ## Rules added at the end -/

theorem resolve?_append_of_isPosition (h : resolve? rules index type? = some rule)
    (hposition : rule.selector.isPosition = true) :
    resolve? (rules ++ more) index type? = some rule := by
  cases resolve?_eq_some_iff.1 h with
  | position hfirst =>
    unfold resolve?
    rw [List.find?_append, find?_isForPosition_iff.2 hfirst]
    rfl
  | type _ hfirst =>
    obtain ⟨⟨pattern, hselector, _⟩, _⟩ := hfirst
    rw [hselector] at hposition
    cases hposition

theorem resolve?_append_iff (h : resolve? rules index type? = some rule)
    (htype : rule.selector.isPosition = false) :
    resolve? (rules ++ more) index type? = some rule ↔
      ∀ other ∈ more, other.selector ≠ .position index := by
  cases resolve?_eq_some_iff.1 h with
  | position hfirst =>
    rw [hfirst.1] at htype
    cases htype
  | @type type _ hnone hfirst =>
    have hold : rules.find? (isForType (some type)) = some rule :=
      find?_isForType_iff.2 ⟨type, rfl, hfirst⟩
    unfold resolve?
    rw [List.find?_append, List.find?_append, find?_isForPosition_eq_none_iff.2 hnone, hold,
      Option.none_or, Option.some_or, ← find?_isForPosition_eq_none_iff]
    cases hmore : more.find? (isForPosition index) with
    | none => simp
    | some added =>
      -- the added rule is one by position, so it is not the one that was found
      have hne : added ≠ rule := by
        rintro rfl
        rw [(find?_isForPosition_iff.1 hmore).1] at htype
        cases htype
      simpa using hne

/-- **What the rule for an argument depends on.** The rule for an argument is the first one for its
position or, without one, the first one that fits its type if that is known. It depends on the rules
by position and on those by type, each in their order, and not on how they are mixed. Rules added at
the end do not change it if it is one by position, and if it is one by type only those for the
position of the argument do. -/
theorem resolve?_of_kinds (rules : List ArgumentRule) (index : Nat) (type? : Option String) :
    (∀ rule, resolve? rules index type? = some rule ↔ Resolves rules index type? rule) ∧
    (resolve? rules index type? = none ↔
      (∀ other ∈ rules, other.selector ≠ .position index) ∧
        ∀ type, type? = some type → ∀ other ∈ rules, ¬ other.FitsType type) ∧
    (∀ mixed, positionRules mixed = positionRules rules → typeRules mixed = typeRules rules →
      resolve? mixed index type? = resolve? rules index type?) ∧
    ∀ more rule, resolve? rules index type? = some rule →
      (rule.selector.isPosition = true → resolve? (rules ++ more) index type? = some rule) ∧
      (rule.selector.isPosition = false →
        (resolve? (rules ++ more) index type? = some rule ↔
          ∀ other ∈ more, other.selector ≠ .position index)) := by
  refine ⟨fun rule => resolve?_eq_some_iff, resolve?_eq_none_iff, ?_, ?_⟩
  · intro mixed hposition htype
    rw [resolve?_eq_kinds, hposition, htype, ← resolve?_eq_kinds]
  · intro more rule h
    exact ⟨resolve?_append_of_isPosition h, resolve?_append_iff h⟩

/-- A rule for the arguments of type `int`. -/
def forInts : ArgumentRule :=
  ⟨.type ⟨"int", [.one (Pattern.Glob.ofStars "int".toList)], true⟩, none, true⟩

/-- A rule for the argument at a position. -/
def forPosition (index : Nat) : ArgumentRule := ⟨.position index, none, false⟩

/-- The second argument has the rule for its position, on whichever side of the rule for its type
that stands. The first one has the rule for its type until there is one for its position. -/
theorem resolve?_of_kinds_forInts :
    resolve? [forPosition 1, forInts] 1 (some "int") = some (forPosition 1) ∧
    resolve? ([forInts, forPosition 1] ++ [forInts]) 1 (some "int") = some (forPosition 1) ∧
    resolve? ([forInts, forPosition 1] ++ [forPosition 2]) 0 (some "int") = some forInts ∧
    resolve? ([forInts, forPosition 1] ++ [forPosition 0]) 0 (some "int") ≠ some forInts := by
  have hsecond : resolve? [forInts, forPosition 1] 1 (some "int") = some (forPosition 1) := rfl
  have hfirst : resolve? [forInts, forPosition 1] 0 (some "int") = some forInts := by rfl
  obtain ⟨_, _, hmixed, hmore⟩ := resolve?_of_kinds [forInts, forPosition 1] 1 (some "int")
  obtain ⟨_, _, _, hadded⟩ := resolve?_of_kinds [forInts, forPosition 1] 0 (some "int")
  refine ⟨?_, (hmore [forInts] _ hsecond).1 rfl, ?_, ?_⟩
  · exact (hmixed [forPosition 1, forInts] rfl rfl).trans hsecond
  · exact ((hadded [forPosition 2] _ hfirst).2 rfl).2 (by simp [forPosition])
  · intro h
    exact ((hadded [forPosition 0] _ hfirst).2 rfl).1 h (forPosition 0) List.mem_cons_self rfl

end ArgumentRule

end CallRefactor
