import CallRefactor.Text.Split
import Mathlib.Data.List.Basic

/-!
# The first occurrence in a text

Where a text is cut at the first occurrence of another one does not depend on what stands around, as
long as no occurrence can begin in front or reach behind.

Main statements: `breakAt?_append_left` and `breakAt?_append_right`, and
`breakAt?_singleton_eq_some_iff`, where a text is cut at a single character.
-/

namespace CallRefactor.Text

variable {needle cs : List Char}

theorem breakAt?_append_self (needle after : List Char) :
    breakAt? needle (needle ++ after) = some ([], after) := by
  have hprefix : needle.isPrefixOf? (needle ++ after) = some after :=
    List.isPrefixOf?_eq_some_iff_append_eq.2 rfl
  cases hhay : needle ++ after with
  | nil =>
    obtain ⟨rfl, rfl⟩ := List.append_eq_nil_iff.1 hhay
    rfl
  | cons c cs =>
    rw [hhay] at hprefix
    rw [breakAt?, hprefix]

theorem breakAt?_cons_of_not_prefix {c : Char} (h : ¬ needle <+: c :: cs) :
    breakAt? needle (c :: cs) =
      (breakAt? needle cs).map fun (before, after) => (c :: before, after) := by
  have hnone : needle.isPrefixOf? (c :: cs) = none := by
    rw [Option.eq_none_iff_forall_not_mem]
    exact fun after hafter => h ⟨after, List.isPrefixOf?_eq_some_iff_append_eq.1 hafter⟩
  rw [breakAt?, hnone]

theorem breakAt?_eq_none (h : ∀ before after, before ++ (needle ++ after) ≠ cs) :
    breakAt? needle cs = none := by
  cases hcut : breakAt? needle cs with
  | none => rfl
  | some cut => exact absurd (append_append_of_breakAt? hcut) (h cut.1 cut.2)

/-- No occurrence begins in front of a text with characters that it cannot begin with. -/
theorem breakAt?_append_left {first : Char} {lead rest : List Char} (h : first ∉ lead)
    (cs : List Char) :
    breakAt? (first :: rest) (lead ++ cs) =
      (breakAt? (first :: rest) cs).map fun (before, after) => (lead ++ before, after) := by
  induction lead with
  | nil => exact Option.map_id'.symm
  | cons c lead ih =>
    have hprefix : ¬ first :: rest <+: c :: (lead ++ cs) := by
      intro hprefix
      exact List.ne_of_not_mem_cons h (List.cons_prefix_cons.1 hprefix).1
    rw [List.cons_append, breakAt?_cons_of_not_prefix hprefix,
      ih (List.not_mem_of_not_mem_cons h), Option.map_map]
    rfl

/-- No occurrence reaches into what follows if none of its characters stands there. -/
theorem breakAt?_append_right {suffix : List Char} (hne : needle ≠ [])
    (h : ∀ c ∈ suffix, c ∉ needle) (cs : List Char) :
    breakAt? needle (cs ++ suffix) =
      (breakAt? needle cs).map fun (before, after) => (before, after ++ suffix) := by
  obtain ⟨first, rest, rfl⟩ := List.exists_cons_of_ne_nil hne
  induction cs with
  | nil =>
    refine breakAt?_eq_none fun before after heq => ?_
    refine h first ?_ List.mem_cons_self
    rw [← show _ = suffix from heq]
    simp
  | cons c cs ih =>
    by_cases hprefix : first :: rest <+: c :: cs
    · obtain ⟨after, hafter⟩ := hprefix
      rw [← hafter, List.append_assoc, breakAt?_append_self, breakAt?_append_self]
      rfl
    · have hprefix' : ¬ first :: rest <+: c :: (cs ++ suffix) := by
        rintro ⟨after, hafter⟩
        rw [← List.cons_append] at hafter
        rcases List.append_eq_append_iff.1 hafter with ⟨m, hcs, _⟩ | ⟨m, hneedle, hsuffix⟩
        · exact hprefix ⟨m, hcs.symm⟩
        · -- the occurrence goes on behind `cs`, so its next character stands there
          cases m with
          | nil =>
            rw [List.append_nil] at hneedle
            exact hprefix ⟨[], by rw [List.append_nil, hneedle]⟩
          | cons d m =>
            exact h d (hsuffix ▸ List.mem_cons_self) (hneedle ▸ by simp)
      rw [List.cons_append, breakAt?_cons_of_not_prefix hprefix',
        breakAt?_cons_of_not_prefix hprefix, ih, Option.map_map, Option.map_map]
      rfl

/-- A text is cut in front of a suffix as if the suffix were not there. -/
theorem breakAt?_append_eq_some_iff {suffix before after : List Char} :
    breakAt? needle (cs ++ suffix) = some (before, after ++ suffix) ↔
      breakAt? needle cs = some (before, after) := by
  induction cs generalizing before with
  | nil =>
    constructor
    · intro h
      have hcut := append_append_of_breakAt? h
      rw [← List.append_assoc, ← List.append_assoc, List.nil_append, List.append_left_eq_self,
        List.append_eq_nil_iff, List.append_eq_nil_iff] at hcut
      obtain ⟨⟨rfl, rfl⟩, rfl⟩ := hcut
      rfl
    · intro h
      obtain ⟨rfl, h'⟩ := List.append_eq_nil_iff.1 (append_append_of_breakAt? h)
      obtain ⟨rfl, rfl⟩ := List.append_eq_nil_iff.1 h'
      exact breakAt?_append_self [] suffix
  | cons c cs ih =>
    by_cases hprefix : needle <+: c :: cs
    · obtain ⟨rest, hrest⟩ := hprefix
      rw [← hrest, List.append_assoc, breakAt?_append_self, breakAt?_append_self]
      simp
    by_cases hlong : needle <+: c :: (cs ++ suffix)
    · -- it reaches into the suffix, so there is no room for it in front
      have hroom : ¬ needle.length ≤ (c :: cs).length := fun hle =>
        hprefix (List.prefix_of_prefix_length_le hlong (List.prefix_append (c :: cs) suffix) hle)
      constructor <;> intro h
      all_goals
        have hlength := congrArg List.length (append_append_of_breakAt? h)
        simp only [List.length_append, List.length_cons] at hlength hroom
        omega
    · have hskip := breakAt?_cons_of_not_prefix hprefix
      have hskip' := breakAt?_cons_of_not_prefix hlong
      rw [List.cons_append, hskip, hskip', Option.map_eq_some_iff, Option.map_eq_some_iff]
      constructor
      · rintro ⟨⟨lead, rest⟩, hcut, heq⟩
        obtain ⟨rfl, rfl⟩ := Prod.mk.inj heq
        exact ⟨_, ih.1 hcut, rfl⟩
      · rintro ⟨⟨lead, rest⟩, hcut, heq⟩
        obtain ⟨rfl, rfl⟩ := Prod.mk.inj heq
        exact ⟨_, ih.2 hcut, rfl⟩

/-- A text is cut at the first place where a character stands. -/
theorem breakAt?_singleton_eq_some_iff {mark : Char} {before after : List Char} :
    breakAt? [mark] cs = some (before, after) ↔ cs = before ++ mark :: after ∧ mark ∉ before := by
  have hfirst : ∀ {lead rest : List Char}, mark ∉ lead →
      breakAt? [mark] (lead ++ mark :: rest) = some (lead, rest) := by
    intro lead rest hlead
    have hself := breakAt?_append_self [mark] rest
    rw [List.singleton_append] at hself
    rw [breakAt?_append_left hlead, hself]
    show some (lead ++ [], rest) = _
    rw [List.append_nil]
  constructor
  · intro h
    obtain rfl : before ++ mark :: after = cs := append_append_of_breakAt? h
    refine ⟨rfl, fun hmem => ?_⟩
    -- the first of several marks would have been found instead
    obtain ⟨lead, rest, hcs, hlead⟩ := List.eq_append_cons_of_mem
      (show mark ∈ before ++ mark :: after by simp)
    rw [hcs, hfirst hlead] at h
    obtain ⟨rfl, _⟩ := Prod.mk.inj (Option.some.inj h)
    exact hlead hmem
  · rintro ⟨rfl, hbefore⟩
    exact hfirst hbefore

theorem dropEnding?_eq_some_iff {ending front : List Char} :
    dropEnding? ending cs = some front ↔ cs = front ++ ending := by
  unfold dropEnding?
  rw [Option.map_eq_some_iff]
  constructor
  · rintro ⟨rest, hrest, rfl⟩
    rw [List.isPrefixOf?_eq_some_iff_append_eq] at hrest
    rw [← List.reverse_inj, ← hrest, List.reverse_append, List.reverse_reverse]
  · rintro rfl
    exact ⟨front.reverse, List.isPrefixOf?_eq_some_iff_append_eq.2 List.reverse_append.symm,
      List.reverse_reverse front⟩

end CallRefactor.Text
