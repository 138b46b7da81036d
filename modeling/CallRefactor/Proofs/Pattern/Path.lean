import CallRefactor.Pattern.TypePattern
import CallRefactor.Proofs.Pattern.Outline

/-!
# The expression of a path, segment by segment

The expression of a path fits a qualified type as one text. Neither a segment of a pattern nor a
package that a gap stands for can have a dot in it, so every way in which the expression fits the
type falls apart at the dots of the type, and what decides is how the path is aligned with the
segments between them.

In the same way no type pattern fits a type that has a comma in it.

Main statements: `Outline.matchesPath_iff_aligns`, `TypePattern.matchesType_iff` and
`TypePattern.avoids_comma`.
-/

namespace CallRefactor.Pattern

open Gapped

variable {c : Char} {path : Path} {type : List Char}

/-! ## Characters that no segment has -/

theorem Glob.avoids_regex {wild : CharClass} {glob : Glob} (hwild : wild.has c = false)
    (h : .one (.exactly c) ∉ glob) : (glob.regex wild).avoids c = true := by
  induction glob with
  | nil => rfl
  | cons item glob ih =>
    have hrest := ih (List.not_mem_of_not_mem_cons h)
    have hne : Item.one (.exactly c) ≠ item := List.ne_of_not_mem_cons h
    cases item with
    | one letter =>
      rw [regex, Regex.avoids_append, hrest, Bool.and_true]
      cases letter with
      | exactly d =>
        have hd : d ≠ c := fun hd => hne (hd ▸ rfl)
        simp [Regex.avoids, Letter.charClass, CharClass.has, hd]
      | anyOne => simp [Regex.avoids, Letter.charClass, hwild]
    | gap =>
      rw [regex, Regex.avoids_append, hrest, Bool.and_true]
      simp [Regex.avoids, hwild]

theorem Glob.mem_of_exactly_mem_ofStars {cs : List Char} (h : .one (.exactly c) ∈ ofStars cs) :
    c ∈ cs := by
  obtain ⟨d, hd, hitem⟩ := List.mem_map.1 h
  split at hitem
  · cases hitem
  · cases hitem
    exact hd

/-- No segment has a character for which no star of it may stand, unless brackets have. -/
theorem Word.avoids_regex {w : Word} (h : IsSegment w.segment)
    (hc : Path.segmentChars.has c = false) :
    (w.glob.regex Path.segmentChars).avoids c = true := by
  have hdots : c = '.' ∨ c = ',' := by
    have hnot := mt segmentChars_has_iff.2 (Bool.eq_false_iff.1 hc)
    rwa [Decidable.not_and_iff_not_or_not, not_not, not_not] at hnot
  refine Glob.avoids_regex hc fun hmem => ?_
  unfold Word.glob at hmem
  rw [flatten_replicate_ofStars, List.mem_append] at hmem
  rcases hmem with hmem | hmem
  · unfold segmentGlob at hmem
    split at hmem
    · simp [Glob.anyRun] at hmem
    · have hpattern := h.2 c (Glob.mem_of_exactly_mem_ofStars hmem)
      rcases hdots with rfl | rfl <;> exact absurd hpattern (by decide +kernel)
  · have hbracket := Glob.mem_of_exactly_mem_ofStars hmem
    unfold brackets at hbracket
    rw [List.mem_flatten] at hbracket
    obtain ⟨pair, hpair, hmem⟩ := hbracket
    rw [List.eq_of_mem_replicate hpair] at hmem
    rcases hdots with rfl | rfl <;> exact absurd hmem (by decide)

/-! ## Between the dots -/

namespace Path

/-- Whether a segment of a path fits a segment of a type. -/
def takes (glob : Glob) (part : List Char) : Bool := (glob.regex segmentChars).accepts part

/-- Whether a segment of a type may be a package that a gap stands for. -/
def isPackage (part : List Char) : Bool := !part.isEmpty && !part.contains ','

theorem isPackage_iff {part : List Char} : isPackage part = true ↔ part ≠ [] ∧ ',' ∉ part := by
  simp [isPackage]

/-- A gap stands for packages with a dot behind each of them. -/
theorem mem_anyPackages_iff {w : List Char} :
    w ∈ anyPackages.language ↔ ∃ packages : List (List Char),
      w = packages.flatMap (· ++ ['.']) ∧
        ∀ part ∈ packages, '.' ∉ part ∧ isPackage part = true := by
  refine Regex.mem_star_iff_flatMap fun u => ?_
  have hchars : ∀ part : List Char, (part ≠ [] ∧ ∀ c ∈ part, segmentChars.has c = true) ↔
      '.' ∉ part ∧ isPackage part = true := by
    intro part
    simp only [segmentChars_has_iff, isPackage_iff]
    constructor
    · rintro ⟨hne, h⟩
      exact ⟨fun hdot => (h _ hdot).1 rfl, hne, fun hcomma => (h _ hcomma).2 rfl⟩
    · rintro ⟨hdot, hne, hcomma⟩
      exact ⟨hne, fun c hc => ⟨fun h => hdot (h ▸ hc), fun h => hcomma (h ▸ hc)⟩⟩
  simp only [Regex.mem_append_iff, Regex.mem_plus_char_iff, hchars, dot,
    Regex.mem_char_exactly_iff]
  constructor
  · rintro ⟨part, _, rfl, hpart, rfl⟩
    exact ⟨part, rfl, hpart⟩
  · rintro ⟨part, rfl, hpart⟩
    exact ⟨part, _, rfl, hpart, rfl⟩

/-- A path with a segment at its end is aligned with one segment at least. -/
theorem aligns_ne_nil {last : Glob} (hlast : path.getLast? = some (.one last))
    {parts : List (List Char)} (h : Aligns takes isPackage path parts) : parts ≠ [] := by
  rintro rfl
  have hmem : last ∈ tests path := mem_tests_iff.2 (List.mem_of_getLast? hlast)
  rw [aligns_nil_iff.1 h] at hmem
  cases hmem

theorem regex_one_of_ne_nil {glob : Glob} (hne : path ≠ []) :
    regex (.one glob :: path) = glob.regex segmentChars ++ (dot ++ regex path) := by
  cases path with
  | nil => exact absurd rfl hne
  | cons _ _ => rfl

/-- The expression of a path fits the types with whose segments the path is aligned. -/
theorem mem_regex_iff {last : Glob}
    (hdots : ∀ glob, .one glob ∈ path → ∀ u ∈ (glob.regex segmentChars).language, '.' ∉ u)
    (hlast : path.getLast? = some (.one last)) :
    type ∈ path.regex.language ↔ Aligns takes isPackage path (Text.splitOn '.' type) := by
  induction path using Path.regex.induct generalizing type with
  | case1 => cases hlast
  | case2 glob =>
    rw [regex, aligns_one_iff]
    constructor
    · intro h
      rw [Text.splitOn_of_not_mem (hdots glob List.mem_cons_self type h)]
      exact ⟨type, [], rfl, Regex.accepts_iff.2 h, .nil⟩
    · rintro ⟨part, _, hsplit, hpart, hrest⟩
      cases hrest
      obtain ⟨rfl, _⟩ := Text.splitOn_eq_cons_iff.1 hsplit
      rw [List.flatMap_nil, List.append_nil]
      exact Regex.accepts_iff.1 hpart
  | case3 glob rest hne ih =>
    have hlast' : rest.getLast? = some (.one last) := by
      rwa [List.getLast?_cons_of_ne_nil hne] at hlast
    have hrest := fun u => @ih u (fun g hg => hdots g (List.mem_cons_of_mem _ hg)) hlast'
    rw [regex_one_of_ne_nil hne, aligns_one_iff]
    simp only [Regex.mem_append_iff, dot, Regex.mem_char_exactly_iff, hrest]
    constructor
    · rintro ⟨u, _, rfl, hu, _, v, rfl, rfl, hv⟩
      refine ⟨u, _, ?_, Regex.accepts_iff.2 hu, hv⟩
      exact Text.splitOn_append_cons (hdots glob List.mem_cons_self u hu) v
    · rintro ⟨part, parts, hsplit, hpart, haligns⟩
      -- a segment is left for the rest, so there is a dot behind the first one
      obtain ⟨next, others, rfl⟩ := List.exists_cons_of_ne_nil (aligns_ne_nil hlast' haligns)
      obtain ⟨v, rfl, hv⟩ := Text.exists_of_splitOn_eq_cons_cons hsplit
      exact ⟨part, _, rfl, Regex.accepts_iff.1 hpart, _, v, rfl, rfl, hv ▸ haligns⟩
  | case4 rest ih =>
    have hne : rest ≠ [] := by
      rintro rfl
      cases hlast
    have hlast' : rest.getLast? = some (.one last) := by
      rwa [List.getLast?_cons_of_ne_nil hne] at hlast
    have hrest := fun u => @ih u (fun g hg => hdots g (List.mem_cons_of_mem _ hg)) hlast'
    rw [regex, aligns_gap_iff, Regex.mem_append_iff]
    simp only [mem_anyPackages_iff, hrest]
    constructor
    · rintro ⟨_, v, rfl, ⟨packages, rfl, hpackages⟩, hv⟩
      refine ⟨packages, _, ?_, fun part hpart => (hpackages part hpart).2, hv⟩
      exact Text.splitOn_flatMap_append (fun part hpart => (hpackages part hpart).1) v
    · rintro ⟨packages, parts, hsplit, hpackages, haligns⟩
      obtain ⟨v, rfl, rfl⟩ := Text.exists_of_splitOn_eq_append (aligns_ne_nil hlast' haligns) hsplit
      refine ⟨_, v, rfl, ⟨packages, rfl, fun part hpart => ⟨?_, hpackages part hpart⟩⟩, haligns⟩
      exact Text.not_mem_of_mem_splitOn (hsplit ▸ List.mem_append_left _ hpart)

/-- A type that a path fits has no comma in it. -/
theorem avoids_comma
    (h : ∀ glob, .one glob ∈ path → (glob.regex segmentChars).avoids ',' = true) :
    path.regex.avoids ',' = true := by
  induction path using Path.regex.induct with
  | case1 => rfl
  | case2 glob => exact h glob List.mem_cons_self
  | case3 glob rest hne ih =>
    have hrest := ih fun g hg => h g (List.mem_cons_of_mem _ hg)
    rw [regex_one_of_ne_nil hne, Regex.avoids_append, Regex.avoids_append,
      h glob List.mem_cons_self, hrest]
    rfl
  | case4 rest ih =>
    have hrest := ih fun g hg => h g (List.mem_cons_of_mem _ hg)
    rw [regex, Regex.avoids_append, hrest]
    rfl

end Path

/-! ## Outlines -/

theorem segment_mem_of_mem_bracketed {dimensions : Nat} {steps : List (Step (List Char))}
    {step : Step Word} (h : step ∈ bracketed dimensions steps) :
    step.item.segment ∈ steps.map Step.item := by
  induction steps using bracketed.induct with
  | case1 => cases h
  | case2 first =>
    rw [bracketed, List.mem_singleton] at h
    subst h
    exact List.mem_cons_self
  | case3 first next rest ih =>
    rw [bracketed] at h
    rcases List.mem_cons.1 h with rfl | h
    · exact List.mem_cons_self
    · exact List.mem_cons_of_mem _ (ih h)

theorem bracketed_cons_ne_nil (dimensions : Nat) (step : Step (List Char))
    (steps : List (Step (List Char))) : bracketed dimensions (step :: steps) ≠ [] := by
  cases steps <;> exact List.cons_ne_nil _ _

namespace Outline

variable {o : Outline}

theorem steps_map_glob_ne_nil (o : Outline) : o.steps.map (Step.map Word.glob) ≠ [] :=
  fun h => bracketed_cons_ne_nil _ _ _ (List.map_eq_nil_iff.1 h)

/-- The segments of a path have no character for which no star may stand. -/
theorem avoids_regex (h : ∀ segment ∈ o.first :: o.later.map Step.item, IsSegment segment)
    (hc : Path.segmentChars.has c = false) {glob : Glob} (hglob : .one glob ∈ o.path) :
    (glob.regex Path.segmentChars).avoids c = true := by
  unfold path at hglob
  rw [← mem_tests_iff, tests_ofSteps, List.map_map] at hglob
  obtain ⟨step, hstep, rfl⟩ := List.mem_map.1 hglob
  exact Word.avoids_regex (h _ (segment_mem_of_mem_bracketed hstep)) hc

/-- **A path is compared segment by segment.** The expression of what an outline is read as fits a
type exactly when the path is aligned with the segments between the dots of the type. -/
theorem matchesPath_iff_aligns
    (h : ∀ segment ∈ o.first :: o.later.map Step.item, IsSegment segment) :
    o.path.matchesPath type = true ↔
      Aligns Path.takes Path.isPackage o.path (Text.splitOn '.' type) := by
  obtain ⟨last, hlast⟩ := exists_getLast?_ofSteps o.steps_map_glob_ne_nil
  unfold Path.matchesPath
  rw [Regex.accepts_iff]
  refine Path.mem_regex_iff (fun glob hglob u hu => ?_) hlast
  exact Regex.not_mem_of_avoids (avoids_regex h (by decide) hglob) hu

end Outline

end CallRefactor.Pattern

namespace CallRefactor.TypePattern

open Pattern

variable {text : String} {pattern : TypePattern} {type : List Char}

theorem parse_eq_ok (h : TypePattern.parse text = .ok pattern) :
    ∃ path, Path.parse (Text.trimWhile Unicode.isBlank text.toList) = .ok path ∧
      pattern = ⟨text, path, isPlain (Text.trimWhile Unicode.isBlank text.toList)⟩ := by
  obtain ⟨path, hpath, rfl⟩ := map_eq_ok_iff.1 h
  exact ⟨path, hpath, rfl⟩

/-- Besides the types that its path fits, a plain name fits those types of `java.lang`. -/
theorem matchesType_iff :
    pattern.matchesType type = true ↔
      pattern.path.matchesPath type = true ∨ pattern.plain = true ∧
        ∃ rest, type = "java.lang.".toList ++ rest ∧ pattern.path.matchesPath rest = true := by
  unfold matchesType regex Path.matchesPath
  simp only [Regex.accepts_iff]
  by_cases hplain : pattern.plain = true
  · rw [if_pos hplain, Regex.mem_append_iff, and_iff_right hplain]
    simp only [Regex.mem_optional_iff, Regex.mem_ofText_iff]
    constructor
    · rintro ⟨_, rest, rfl, rfl | rfl, hrest⟩
      · exact .inl hrest
      · exact .inr ⟨rest, rfl, hrest⟩
    · rintro (h | ⟨rest, rfl, hrest⟩)
      · exact ⟨[], type, rfl, .inl rfl, h⟩
      · exact ⟨_, rest, rfl, .inr rfl, hrest⟩
  · rw [if_neg hplain]
    exact ⟨.inl, fun h => h.resolve_right fun hnot => hplain hnot.1⟩

/-- No type pattern fits a type that has a comma in it. -/
theorem avoids_comma (h : TypePattern.parse text = .ok pattern) :
    pattern.regex.avoids ',' = true := by
  obtain ⟨path, hpath, rfl⟩ := parse_eq_ok h
  obtain ⟨o, ho, rfl⟩ := Path.exists_spells hpath
  have hcomma : o.path.regex.avoids ',' = true :=
    Path.avoids_comma fun glob hglob => Outline.avoids_regex ho.segments (by decide) hglob
  unfold regex
  split
  · rw [Regex.avoids_append, hcomma]
    rfl
  · exact hcomma

end CallRefactor.TypePattern
