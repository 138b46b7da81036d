import CallRefactor.Proofs.Pattern.Arguments
import CallRefactor.Proofs.Pattern.Path

/-!
# The types that a type pattern fits

A type is a list of segments between its dots. A type pattern fits it when its segments can be
placed there: in order, the last one on the last segment, the first one on the first segment unless
a star and two dots stand in front, neighbours where one dot joins them, and with packages between
where two dots do. As an argument, a plain name also fits the type of that name in `java.lang`.

Main statement: `matches_iff_fits`.
-/

namespace CallRefactor.Pattern

open Gapped

variable {type : List Char}

/-! ## Placing the segments -/

/-- An outline fits a type whose segments its own segments can be placed on. A segment that none of
them takes is nonempty and has no comma. -/
def Outline.Fits (o : Outline) (type : List Char) : Prop :=
  ∃ places, Placement Word.Takes (fun part => part ≠ [] ∧ ',' ∉ part) o.steps
    (Text.splitOn '.' type) places

theorem matchesPath_path_iff {o : Outline}
    (h : ∀ segment ∈ o.first :: o.later.map Step.item, IsSegment segment) :
    o.path.matchesPath type = true ↔ o.Fits type := by
  rw [Outline.matchesPath_iff_aligns h]
  unfold Outline.Fits Outline.path
  rw [aligns_ofSteps_iff o.steps_map_glob_ne_nil]
  simp only [placement_map_iff, Path.takes, accepts_word_iff, Path.isPackage_iff]

end CallRefactor.Pattern

namespace CallRefactor

open Pattern

theorem TypePattern.isPlain_iff {cs : List Char} :
    TypePattern.isPlain cs = true ↔ '.' ∉ cs ∧ '*' ∉ cs := by
  unfold isPlain
  rw [List.all_eq_true]
  constructor
  · intro h
    exact ⟨fun hdot => by simpa using h _ hdot, fun hstar => by simpa using h _ hstar⟩
  · rintro ⟨hdot, hstar⟩ c hc
    have hne : c ≠ '.' ∧ c ≠ '*' := ⟨fun h => hdot (h ▸ hc), fun h => hstar (h ▸ hc)⟩
    simpa using hne

/-- **Type patterns fit by segments.** A type pattern has an outline, and fits a type exactly when
its segments can be placed on those of the type. That is so for the declaring type of a signature
and for the types of arguments, where a name without dots and stars may stand in `java.lang`. -/
theorem matches_iff_fits :
    (∀ text signature, Signature.parse text = .ok signature →
      ∃ texts, Signature.texts text = .ok texts ∧
        (∃ outline : Outline, outline.Spells texts.owner) ∧
        ∀ outline : Outline, outline.Spells texts.owner → ∀ type,
          signature.matchesOwner type = true ↔ outline.Fits type.toList) ∧
    (∀ text pattern, TypePattern.parse text = .ok pattern →
      (∃ outline : Outline, outline.Spells (Text.trimWhile Unicode.isBlank text.toList)) ∧
        ∀ outline : Outline, outline.Spells (Text.trimWhile Unicode.isBlank text.toList) →
          ∀ type, pattern.matchesType type = true ↔
            outline.Fits type ∨
              '.' ∉ Text.trimWhile Unicode.isBlank text.toList ∧
              '*' ∉ Text.trimWhile Unicode.isBlank text.toList ∧
              ∃ rest, type = "java.lang.".toList ++ rest ∧ outline.Fits rest) ∧
    ∀ text signature, Signature.parse text = .ok signature →
      ∀ pattern, .one pattern ∈ signature.arguments →
        ∃ element ∈ Signature.elements text,
          TypePattern.parse (String.ofList element) = .ok pattern := by
  refine ⟨fun text signature h => ?_, fun text pattern h => ?_, fun text signature h p hp => ?_⟩
  · obtain ⟨texts, htexts, hpath, _⟩ := Signature.parse_eq_ok h
    obtain ⟨outline, hspells, _⟩ := Path.parse_eq_ok_iff.1 hpath
    refine ⟨texts, htexts, ⟨outline, hspells⟩, fun outline hspells type => ?_⟩
    rw [hspells.parse_eq] at hpath
    unfold Signature.matchesOwner
    rw [← Except.ok.inj hpath, matchesPath_path_iff hspells.segments]
  · obtain ⟨path, hpath, rfl⟩ := TypePattern.parse_eq_ok h
    obtain ⟨outline, hspells, _⟩ := Path.parse_eq_ok_iff.1 hpath
    refine ⟨⟨outline, hspells⟩, fun outline hspells type => ?_⟩
    rw [hspells.parse_eq] at hpath
    rw [TypePattern.matchesType_iff, TypePattern.isPlain_iff, ← Except.ok.inj hpath, and_assoc]
    simp only [matchesPath_path_iff hspells.segments]
  · obtain ⟨texts, htexts, _, _, harguments⟩ := Signature.parse_eq_ok h
    rw [Signature.elements_eq htexts]
    exact ArgumentsPattern.exists_element (ArgumentsPattern.parse_eq_ok harguments).1 hp

theorem matches_iff_fits_prefixed :
    ∃ signature pattern, Signature.parse "*..B* f()" = .ok signature ∧
      TypePattern.parse "String []" = .ok pattern ∧ signature.matchesOwner "a.Bc" = true ∧
      pattern.matchesType "java.lang.String[]".toList = true := by
  obtain ⟨signature, hsignature⟩ : ∃ signature, Signature.parse "*..B* f()" = .ok signature :=
    ⟨_, rfl⟩
  obtain ⟨pattern, hpattern⟩ : ∃ pattern, TypePattern.parse "String []" = .ok pattern := ⟨_, rfl⟩
  refine ⟨signature, pattern, hsignature, hpattern, ?_, ?_⟩
  · obtain ⟨texts, htexts, _, hmatches⟩ := matches_iff_fits.1 _ _ hsignature
    obtain rfl : ⟨"*..B*".toList, "f".toList, []⟩ = texts := Except.ok.inj htexts
    have hsegment : IsSegment "B*".toList :=
      ⟨by decide, List.all_eq_true.1 (by decide +kernel)⟩
    refine (hmatches ⟨true, "B*".toList, [], 0⟩
      ⟨List.forall_mem_singleton.2 hsegment, fun _ => rfl, [], .nil, rfl⟩ "a.Bc").2 ⟨[1], ?_⟩
    refine ⟨.cons ⟨"Bc".toList, rfl, "Bc".toList, rfl, [['c']], rfl, by simp, by decide, rfl⟩
      .nil, by decide, nofun, nofun, rfl, ?_⟩
    intro i part hpart hi
    match i with
    | 0 =>
      obtain rfl : "a".toList = part := Option.some.inj hpart
      decide
    | 1 => exact absurd List.mem_cons_self hi
    | i + 2 => cases hpart
  · have hsegment : IsSegment "String".toList :=
      ⟨by decide, List.all_eq_true.1 (by decide +kernel)⟩
    refine ((matches_iff_fits.2.1 _ _ hpattern).2 ⟨false, "String".toList, [], 1⟩
      ⟨List.forall_mem_singleton.2 hsegment, by decide, " []".toList,
        .pair (.blank .nil (by decide)), by decide⟩ _).2 (.inr ⟨by decide, by decide, ?_⟩)
    refine ⟨"String[]".toList, by decide, [0], ?_⟩
    refine ⟨.cons ⟨"String[]".toList, rfl, "String".toList, rfl, [], rfl, nofun, by decide, rfl⟩
      .nil, by decide, fun _ _ _ => rfl, nofun, rfl, ?_⟩
    intro i part hpart hi
    match i with
    | 0 => exact absurd List.mem_cons_self hi
    | i + 1 => cases hpart

end CallRefactor
