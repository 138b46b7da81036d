import CallRefactor.Pattern.Signature
import CallRefactor.Proofs.Pattern.Path

/-!
# Argument lists, element by element

The argument types of a call are compared with a signature as one text, joined by commas. No type
pattern fits a type that has a comma in it, nor does the ellipsis stand for one. So every way in
which the expression of a signature fits the text falls apart at its commas, which are the ones
between the types. What decides is how the elements of the signature match the types one by one:
all of them without an ellipsis, and those in front of it and those behind it with one.

Main statements: `matchesJoined_iff_aligns` and `matchesArguments_iff`.
-/

namespace CallRefactor

/-! ## The texts of a signature -/

/-- The texts of the three patterns of a signature. -/
structure Signature.Texts where
  /-- What stands in front of the last blank before the parentheses. -/
  owner : List Char
  /-- What stands between that blank and the parentheses. -/
  name : List Char
  /-- What stands between the parentheses. -/
  arguments : List Char

/-- Cuts a signature into the texts of its patterns. -/
def Signature.texts (text : String) : Except PatternError Signature.Texts := do
  let (head, inner) ← cutArguments (Text.trimWhile Unicode.isBlank text.toList)
  let (owner, name) ← cutName head
  return ⟨owner, name, inner⟩

theorem Signature.parse_eq_ok {text : String} {signature : Signature}
    (h : Signature.parse text = .ok signature) :
    ∃ texts, Signature.texts text = .ok texts ∧
      Pattern.Path.parse texts.owner = .ok signature.owner ∧
      NamePattern.parse texts.name = .ok signature.name ∧
      ArgumentsPattern.parse texts.arguments = .ok signature.arguments := by
  unfold Signature.parse at h
  obtain ⟨⟨head, inner⟩, hcut, h⟩ := bind_eq_ok_iff.1 h
  obtain ⟨⟨owner, name⟩, hname, h⟩ := bind_eq_ok_iff.1 h
  obtain ⟨path, hpath, h⟩ := bind_eq_ok_iff.1 h
  obtain ⟨pattern, hpattern, h⟩ := bind_eq_ok_iff.1 h
  obtain ⟨arguments, harguments, h⟩ := bind_eq_ok_iff.1 h
  obtain rfl := Except.ok.inj h
  refine ⟨⟨owner, name, inner⟩, ?_, hpath, hpattern, harguments⟩
  exact bind_eq_ok_iff.2 ⟨_, hcut, bind_eq_ok_iff.2 ⟨_, hname, rfl⟩⟩

/-! ## Elements -/

namespace ArgumentsPattern

open Pattern

/-- The elements of an argument list: what stands between its commas, without the blanks around. -/
def elements (cs : List Char) : List (List Char) :=
  let inner := Text.trimWhile Unicode.isBlank cs
  if inner.isEmpty then [] else (Text.splitOn ',' inner).map (Text.trimWhile Unicode.isBlank)

/-- An argument list is read element by element, and has at most one ellipsis. -/
theorem parse_eq_ok {cs : List Char} {pattern : ArgumentsPattern} (h : parse cs = .ok pattern) :
    (elements cs).mapM element = .ok pattern ∧ (elements cs).count ellipsis ≤ 1 := by
  unfold parse at h
  unfold elements
  by_cases hblank : (Text.trimWhile Unicode.isBlank cs).isEmpty = true
  · rw [if_pos hblank] at h ⊢
    exact ⟨h, Nat.zero_le 1⟩
  · rw [if_neg hblank] at h ⊢
    split at h
    · cases h
    · next hcount => exact ⟨h, Nat.le_of_not_lt hcount⟩

/-- Elements that can be read, at most one of them the ellipsis, make up an argument list. -/
theorem parse_of_elements {cs : List Char} {pattern : ArgumentsPattern}
    (h : (elements cs).mapM element = .ok pattern) (hcount : (elements cs).count ellipsis ≤ 1) :
    parse cs = .ok pattern := by
  unfold parse
  unfold elements at h hcount
  by_cases hblank : (Text.trimWhile Unicode.isBlank cs).isEmpty = true
  · rw [if_pos hblank] at h ⊢
    exact h
  · rw [if_neg hblank] at h hcount ⊢
    rw [if_neg (Nat.not_lt.2 hcount)]
    exact h

theorem element_eq_ok {cs : List Char} {item : Item TypePattern} (hne : cs ≠ ellipsis)
    (h : element cs = .ok item) :
    ∃ pattern, TypePattern.parse (String.ofList cs) = .ok pattern ∧ item = .one pattern := by
  unfold element at h
  by_cases hempty : cs.isEmpty = true
  · rw [if_pos hempty] at h
    cases h
  · rw [if_neg hempty, if_neg hne] at h
    obtain ⟨pattern, hpattern, rfl⟩ := map_eq_ok_iff.1 h
    exact ⟨pattern, hpattern, rfl⟩

/-- Every type pattern of an argument list is read from one of its elements. -/
theorem exists_element {es : List (List Char)} {pattern : ArgumentsPattern}
    (h : es.mapM element = .ok pattern) {p : TypePattern} (hp : .one p ∈ pattern) :
    ∃ cs ∈ es, TypePattern.parse (String.ofList cs) = .ok p := by
  replace h := mapM_eq_ok_iff.1 h
  induction h with
  | nil => cases hp
  | @cons cs item es pattern hitem _ ih =>
    rcases List.mem_cons.1 hp with rfl | hp
    · refine ⟨cs, List.mem_cons_self, ?_⟩
      by_cases hcs : cs = ellipsis
      · subst hcs
        cases hitem
      · obtain ⟨_, hparse, hone⟩ := element_eq_ok hcs hitem
        cases hone
        exact hparse
    · obtain ⟨cs, hcs, hparse⟩ := ih hp
      exact ⟨cs, List.mem_cons_of_mem _ hcs, hparse⟩

/-- Only the ellipsis is read as a gap. -/
theorem eq_ellipsis_of_element {cs : List Char} (h : element cs = .ok .gap) : cs = ellipsis := by
  by_contra hne
  obtain ⟨_, _, hgap⟩ := element_eq_ok hne h
  cases hgap

theorem exists_typePatterns {es : List (List Char)} {items : ArgumentsPattern}
    (h : es.mapM element = .ok items) (hnot : ellipsis ∉ es) :
    ∃ patterns : List TypePattern, items = patterns.map .one ∧
      List.Forall₂ (fun cs pattern => TypePattern.parse (String.ofList cs) = .ok pattern) es
        patterns := by
  replace h := mapM_eq_ok_iff.1 h
  induction h with
  | nil => exact ⟨[], rfl, .nil⟩
  | cons he _ ih =>
    obtain ⟨pattern, hpattern, rfl⟩ := element_eq_ok (List.ne_of_not_mem_cons hnot).symm he
    obtain ⟨patterns, rfl, hpatterns⟩ := ih (List.not_mem_of_not_mem_cons hnot)
    exact ⟨pattern :: patterns, rfl, .cons hpattern hpatterns⟩

/-! ## Types -/

/-- An element of an argument list is a type pattern that matches a type. -/
def Fits (element : List Char) (type : String) : Prop :=
  ∃ pattern, TypePattern.parse (String.ofList element) = .ok pattern ∧
    pattern.matchesType type.toList = true

/-- Elements fit types one by one when the type patterns that they are read as match them. -/
theorem forall₂_fits_iff {es : List (List Char)} {patterns : List TypePattern}
    {types : List String}
    (h : List.Forall₂ (fun cs pattern => TypePattern.parse (String.ofList cs) = .ok pattern) es
      patterns) :
    List.Forall₂ Fits es types ↔
      List.Forall₂ (fun pattern type => pattern.matchesType type = true) patterns
        (types.map String.toList) := by
  rw [List.forall₂_map_right_iff]
  induction h generalizing types with
  | nil => exact ⟨fun h => by cases h; exact .nil, fun h => by cases h; exact .nil⟩
  | cons hparse _ ih =>
    constructor
    · intro h
      cases h with
      | cons hfits hrest =>
        obtain ⟨pattern, hpattern, hmatches⟩ := hfits
        rw [hparse] at hpattern
        obtain rfl := Except.ok.inj hpattern
        exact .cons hmatches (ih.1 hrest)
    · intro h
      cases h with
      | cons hmatches hrest => exact .cons ⟨_, hparse, hmatches⟩ (ih.2 hrest)

/-! ## Between the commas -/

section Commas

variable {pattern : ArgumentsPattern} {w : List Char}

/-- The ellipsis stands for types that are not empty and have no comma in them. -/
theorem mem_anyType_iff : w ∈ anyType.language ↔ ',' ∉ w ∧ (!w.isEmpty) = true := by
  unfold anyType
  rw [Regex.mem_plus_noneOf_iff, and_comm]
  simp

theorem mem_moreTypes_iff :
    w ∈ moreTypes.language ↔ ∃ pieces : List (List Char),
      w = pieces.flatMap (',' :: ·) ∧
        ∀ piece ∈ pieces, ',' ∉ piece ∧ (!piece.isEmpty) = true := by
  refine Regex.mem_star_iff_flatMap fun u => ?_
  simp only [Regex.mem_append_iff, comma, Regex.mem_char_exactly_iff, mem_anyType_iff]
  constructor
  · rintro ⟨_, piece, rfl, rfl, hpiece⟩
    exact ⟨piece, rfl, hpiece⟩
  · rintro ⟨piece, rfl, hpiece⟩
    exact ⟨_, piece, rfl, rfl, hpiece⟩

theorem mem_star_anyType_comma_iff :
    w ∈ (Regex.star (anyType ++ comma)).language ↔ ∃ pieces : List (List Char),
      w = pieces.flatMap (· ++ [',']) ∧
        ∀ piece ∈ pieces, ',' ∉ piece ∧ (!piece.isEmpty) = true := by
  refine Regex.mem_star_iff_flatMap fun u => ?_
  simp only [Regex.mem_append_iff, comma, Regex.mem_char_exactly_iff, mem_anyType_iff]
  constructor
  · rintro ⟨piece, _, rfl, hpiece, rfl⟩
    exact ⟨piece, rfl, hpiece⟩
  · rintro ⟨piece, rfl, hpiece⟩
    exact ⟨piece, _, rfl, hpiece, rfl⟩

/-- Elements behind a type pattern fit the types that they are aligned with, if a comma stands in
front of each of them. -/
theorem mem_elementsRegex_true_iff
    (hcommas : ∀ p, .one p ∈ pattern → ∀ u ∈ p.regex.language, ',' ∉ u) :
    w ∈ (elementsRegex true pattern).language ↔ ∃ pieces : List (List Char),
      w = pieces.flatMap (',' :: ·) ∧ (∀ piece ∈ pieces, ',' ∉ piece) ∧
        Gapped.Aligns TypePattern.matchesType (fun piece => !piece.isEmpty) pattern pieces := by
  induction pattern generalizing w with
  | nil =>
    rw [elementsRegex, Regex.mem_empty_iff]
    constructor
    · rintro rfl
      exact ⟨[], rfl, nofun, .nil⟩
    · rintro ⟨_, rfl, _, h⟩
      cases h
      rfl
  | cons item rest ih =>
    have hrest := fun v => @ih v fun p hp => hcommas p (List.mem_cons_of_mem _ hp)
    cases item with
    | one p =>
      rw [elementsRegex, if_pos rfl]
      simp only [Regex.mem_append_iff, comma, Regex.mem_char_exactly_iff, hrest,
        Gapped.aligns_one_iff]
      constructor
      · rintro ⟨_, _, rfl, ⟨_, u, rfl, rfl, hu⟩, pieces, rfl, hpieces, haligns⟩
        have hcomma := hcommas p List.mem_cons_self u hu
        exact ⟨u :: pieces, rfl, List.forall_mem_cons.2 ⟨hcomma, hpieces⟩,
          u, pieces, rfl, Regex.accepts_iff.2 hu, haligns⟩
      · rintro ⟨_, rfl, hall, u, pieces, rfl, hu, haligns⟩
        exact ⟨_, _, rfl, ⟨_, u, rfl, rfl, Regex.accepts_iff.1 hu⟩, pieces, rfl,
          (List.forall_mem_cons.1 hall).2, haligns⟩
    | gap =>
      rw [elementsRegex]
      simp only [Regex.mem_append_iff, mem_moreTypes_iff, hrest, Gapped.aligns_gap_iff]
      constructor
      · rintro ⟨_, _, rfl, ⟨passed, rfl, hpassed⟩, pieces, rfl, hpieces, haligns⟩
        refine ⟨passed ++ pieces, List.flatMap_append.symm, ?_, passed, pieces, rfl,
          fun piece hpiece => (hpassed piece hpiece).2, haligns⟩
        exact List.forall_mem_append.2 ⟨fun piece hpiece => (hpassed piece hpiece).1, hpieces⟩
      · rintro ⟨_, rfl, hall, passed, pieces, rfl, hpassed, haligns⟩
        obtain ⟨hfront, hback⟩ := List.forall_mem_append.1 hall
        exact ⟨_, _, List.flatMap_append,
          ⟨passed, rfl, fun piece hpiece => ⟨hfront piece hpiece, hpassed piece hpiece⟩⟩,
          pieces, rfl, hback, haligns⟩

/-- Elements that begin with a type pattern fit the types that they are aligned with, if a comma
stands between any two of them. -/
theorem mem_elementsRegex_false_iff {p : TypePattern}
    (hcommas : ∀ q, .one q ∈ .one p :: pattern → ∀ u ∈ q.regex.language, ',' ∉ u) :
    w ∈ (elementsRegex false (.one p :: pattern)).language ↔
      Gapped.Aligns TypePattern.matchesType (fun piece => !piece.isEmpty) (.one p :: pattern)
        (Text.splitOn ',' w) := by
  have hrest := fun v =>
    @mem_elementsRegex_true_iff pattern v fun q hq => hcommas q (List.mem_cons_of_mem _ hq)
  rw [elementsRegex, if_neg Bool.false_ne_true, Gapped.aligns_one_iff]
  simp only [Regex.mem_append_iff, hrest]
  constructor
  · rintro ⟨u, _, rfl, hu, pieces, rfl, hpieces, haligns⟩
    refine ⟨u, pieces, Text.splitOn_eq_cons_iff.2 ⟨rfl, ?_⟩, Regex.accepts_iff.2 hu, haligns⟩
    exact List.forall_mem_cons.2 ⟨hcommas p List.mem_cons_self u hu, hpieces⟩
  · rintro ⟨u, pieces, hsplit, hu, haligns⟩
    obtain ⟨rfl, hall⟩ := Text.splitOn_eq_cons_iff.1 hsplit
    exact ⟨u, _, rfl, Regex.accepts_iff.1 hu, pieces, rfl, (List.forall_mem_cons.1 hall).2, haligns⟩

/-- A lone ellipsis fits all types, and no types at all. -/
theorem mem_regex_gap_iff :
    w ∈ (regex [.gap]).language ↔ w = [] ∨
      Gapped.Aligns TypePattern.matchesType (fun piece => !piece.isEmpty) [.gap]
        (Text.splitOn ',' w) := by
  show w ∈ (Regex.optional (anyType ++ moreTypes)).language ↔ _
  rw [Regex.mem_optional_iff, Gapped.aligns_gap_iff, Regex.mem_append_iff]
  simp only [mem_anyType_iff, mem_moreTypes_iff]
  refine or_congr Iff.rfl ?_
  constructor
  · rintro ⟨u, _, rfl, hu, pieces, rfl, hpieces⟩
    refine ⟨u :: pieces, [], ?_, ?_, .nil⟩
    · rw [List.append_nil, Text.splitOn_eq_cons_iff]
      exact ⟨rfl, List.forall_mem_cons.2 ⟨hu.1, fun piece hpiece => (hpieces piece hpiece).1⟩⟩
    · exact List.forall_mem_cons.2 ⟨hu.2, fun piece hpiece => (hpieces piece hpiece).2⟩
  · rintro ⟨passed, _, hsplit, hpassed, hnil⟩
    cases hnil
    rw [List.append_nil] at hsplit
    obtain ⟨u, pieces, rfl⟩ :=
      List.exists_cons_of_ne_nil (hsplit ▸ Text.splitOn_ne_nil ',' w : passed ≠ [])
    obtain ⟨rfl, hall⟩ := Text.splitOn_eq_cons_iff.1 hsplit
    obtain ⟨hu, hpieces⟩ := List.forall_mem_cons.1 hall
    obtain ⟨hu', hpassed⟩ := List.forall_mem_cons.1 hpassed
    exact ⟨u, _, rfl, ⟨hu, hu'⟩, pieces, rfl,
      fun piece hpiece => ⟨hpieces piece hpiece, hpassed piece hpiece⟩⟩

/-- An ellipsis in front of a type pattern stands for types with a comma behind each of them. -/
theorem mem_regex_gap_one_iff {p : TypePattern}
    (hcommas : ∀ q, .one q ∈ .one p :: pattern → ∀ u ∈ q.regex.language, ',' ∉ u) :
    w ∈ (regex (.gap :: .one p :: pattern)).language ↔
      Gapped.Aligns TypePattern.matchesType (fun piece => !piece.isEmpty)
        (.gap :: .one p :: pattern) (Text.splitOn ',' w) := by
  have helements := fun v => @mem_elementsRegex_false_iff pattern v p hcommas
  show w ∈ (Regex.star (anyType ++ comma) ++ elementsRegex false (.one p :: pattern)).language ↔ _
  rw [Gapped.aligns_gap_iff, Regex.mem_append_iff]
  simp only [mem_star_anyType_comma_iff, helements]
  constructor
  · rintro ⟨_, v, rfl, ⟨passed, rfl, hpassed⟩, hv⟩
    refine ⟨passed, _, ?_, fun piece hpiece => (hpassed piece hpiece).2, hv⟩
    exact Text.splitOn_flatMap_append (fun piece hpiece => (hpassed piece hpiece).1) v
  · rintro ⟨passed, pieces, hsplit, hpassed, haligns⟩
    have hne : pieces ≠ [] := by
      rintro rfl
      cases haligns
    obtain ⟨v, rfl, rfl⟩ := Text.exists_of_splitOn_eq_append hne hsplit
    refine ⟨_, v, rfl, ⟨passed, rfl, fun piece hpiece => ⟨?_, hpassed piece hpiece⟩⟩, haligns⟩
    exact Text.not_mem_of_mem_splitOn (hsplit ▸ List.mem_append_left _ hpiece)

/-- The expression of an argument list fits the types with which the list is aligned, and nothing at
all if no element of the list asks for a type. -/
theorem mem_regex_iff (hcommas : ∀ p, .one p ∈ pattern → ∀ u ∈ p.regex.language, ',' ∉ u)
    (hgaps : ∀ rest, pattern ≠ .gap :: .gap :: rest) :
    w ∈ pattern.regex.language ↔ (w = [] ∧ Gapped.tests pattern = []) ∨
      Gapped.Aligns TypePattern.matchesType (fun piece => !piece.isEmpty) pattern
        (Text.splitOn ',' w) := by
  match pattern with
  | [] =>
    have hnone : ¬ Gapped.Aligns TypePattern.matchesType (fun piece => !piece.isEmpty) []
        (Text.splitOn ',' w) := by
      generalize hsplit : Text.splitOn ',' w = pieces
      intro h
      cases h
      exact Text.splitOn_ne_nil ',' w hsplit
    rw [or_iff_left hnone]
    exact Regex.mem_empty_iff.trans (and_iff_left rfl).symm
  | .one p :: rest =>
    rw [or_iff_right fun h => List.cons_ne_nil p _ h.2]
    exact mem_elementsRegex_false_iff hcommas
  | [.gap] =>
    rw [mem_regex_gap_iff]
    exact or_congr (and_iff_left rfl).symm Iff.rfl
  | .gap :: .one p :: rest =>
    rw [or_iff_right fun h => List.cons_ne_nil p _ h.2]
    exact mem_regex_gap_one_iff fun q hq => hcommas q (List.mem_cons_of_mem _ hq)
  | .gap :: .gap :: rest => exact absurd rfl (hgaps rest)

/-- **Argument types are compared between the commas.** The expression of an argument list fits a
text exactly when the list is aligned with what stands between its commas. The empty text is also
the call without arguments, for which no element may ask for a type. -/
theorem matchesJoined_iff_aligns {cs : List Char} (h : parse cs = .ok pattern) :
    pattern.matchesJoined w = true ↔ (w = [] ∧ Gapped.tests pattern = []) ∨
      Gapped.Aligns TypePattern.matchesType (fun piece => !piece.isEmpty) pattern
        (Text.splitOn ',' w) := by
  obtain ⟨helements, hcount⟩ := parse_eq_ok h
  refine Regex.accepts_iff.trans (mem_regex_iff (fun p hp u hu => ?_) ?_)
  · obtain ⟨_, _, hparse⟩ := exists_element helements hp
    exact Regex.not_mem_of_avoids (TypePattern.avoids_comma hparse) hu
  · rintro rest rfl
    -- two gaps would be two ellipses
    have hitems := mapM_eq_ok_iff.1 helements
    generalize elements cs = es at hitems hcount
    cases hitems with
    | cons hfirst hitems =>
      cases hitems with
      | cons hsecond _ =>
        obtain rfl := eq_ellipsis_of_element hfirst
        obtain rfl := eq_ellipsis_of_element hsecond
        rw [List.count_cons_self, List.count_cons_self] at hcount
        omega

/-- The commas of joined types are the ones between them. -/
theorem matchesJoined_iff {cs : List Char} {types : List String} (h : parse cs = .ok pattern)
    (hne : types ≠ []) (htypes : ∀ type ∈ types, type ≠ "" ∧ ',' ∉ type.toList) :
    pattern.matchesJoined (",".intercalate types).toList = true ↔
      Gapped.Aligns TypePattern.matchesType (fun piece => !piece.isEmpty) pattern
        (types.map String.toList) := by
  have hpieces : Text.splitOn ',' (",".intercalate types).toList = types.map String.toList := by
    rw [String.toList_intercalate]
    refine Text.splitOn_intercalate (by simpa using hne) ?_
    simpa using fun type htype => (htypes type htype).2
  have hjoined_ne : (",".intercalate types).toList ≠ [] := by
    intro hempty
    -- the only piece of the empty text is empty, and no type is
    rw [hempty] at hpieces
    obtain ⟨type, htype, hnil⟩ :=
      List.mem_map.1 (show ([] : List Char) ∈ types.map String.toList from hpieces ▸ .head [])
    exact (htypes type htype).1 (String.toList_inj.1 hnil)
  rw [matchesJoined_iff_aligns h, hpieces, or_iff_right fun hempty => hjoined_ne hempty.1]

end Commas

section Parsed

variable {cs : List Char} {pattern : ArgumentsPattern} {types : List String}

theorem aligns_iff_of_not_mem (h : parse cs = .ok pattern) (hnot : ellipsis ∉ elements cs) :
    Gapped.Aligns TypePattern.matchesType (fun piece => !piece.isEmpty) pattern
      (types.map String.toList) ↔ List.Forall₂ Fits (elements cs) types := by
  obtain ⟨patterns, rfl, hpatterns⟩ := exists_typePatterns (parse_eq_ok h).1 hnot
  rw [Gapped.aligns_map_one_iff, forall₂_fits_iff hpatterns]

/-- With an ellipsis the elements in front of it fit the first types, and those behind it the last
ones. -/
theorem aligns_iff_of_eq_append {before after : List (List Char)} (h : parse cs = .ok pattern)
    (hcs : elements cs = before ++ ellipsis :: after) (htypes : ∀ type ∈ types, type ≠ "") :
    Gapped.Aligns TypePattern.matchesType (fun piece => !piece.isEmpty) pattern
        (types.map String.toList) ↔
      ∃ front between back, types = front ++ (between ++ back) ∧
        List.Forall₂ Fits before front ∧ List.Forall₂ Fits after back := by
  obtain ⟨helements, hcount⟩ := parse_eq_ok h
  rw [hcs] at helements hcount
  -- the ellipsis is the only one, so type patterns stand in front of it and behind it
  rw [List.count_append, List.count_cons_self] at hcount
  have hbefore : ellipsis ∉ before := List.count_eq_zero.1 (by omega)
  have hafter : ellipsis ∉ after := List.count_eq_zero.1 (by omega)
  rw [List.mapM_append] at helements
  obtain ⟨items, hitems, helements⟩ := bind_eq_ok_iff.1 helements
  obtain ⟨rest, hrest, helements⟩ := bind_eq_ok_iff.1 helements
  obtain rfl : items ++ rest = pattern := Except.ok.inj helements
  rw [List.mapM_cons] at hrest
  obtain ⟨item, hitem, hrest⟩ := bind_eq_ok_iff.1 hrest
  obtain ⟨tail, htail, hrest⟩ := bind_eq_ok_iff.1 hrest
  obtain rfl : item :: tail = rest := Except.ok.inj hrest
  obtain rfl : Item.gap = item := Except.ok.inj hitem
  obtain ⟨heads, rfl, hheads⟩ := exists_typePatterns hitems hbefore
  obtain ⟨tails, rfl, htails⟩ := exists_typePatterns htail hafter
  rw [Gapped.aligns_around_gap_iff]
  constructor
  · rintro ⟨_, _, _, hsplit, hfront, _, hback⟩
    obtain ⟨front, others, rfl, rfl, hothers⟩ := List.map_eq_append_iff.1 hsplit
    obtain ⟨between, back, rfl, rfl, rfl⟩ := List.map_eq_append_iff.1 hothers
    exact ⟨front, between, back, rfl, (forall₂_fits_iff hheads).2 hfront,
      (forall₂_fits_iff htails).2 hback⟩
  · rintro ⟨front, between, back, rfl, hfront, hback⟩
    refine ⟨_, between.map String.toList, _, by rw [List.map_append, List.map_append],
      (forall₂_fits_iff hheads).1 hfront, ?_, (forall₂_fits_iff htails).1 hback⟩
    intro piece hpiece
    obtain ⟨type, htype, rfl⟩ := List.mem_map.1 hpiece
    have hne := htypes type
      (List.mem_append_right front (List.mem_append_left back htype))
    simpa using hne

end Parsed

end ArgumentsPattern

/-! ## Calls -/

/-- The texts of the elements between the parentheses of a signature. -/
def Signature.elements (text : String) : List (List Char) :=
  match Signature.texts text with
  | .error _ => []
  | .ok texts => ArgumentsPattern.elements texts.arguments

theorem Signature.elements_eq {text : String} {texts : Signature.Texts}
    (h : Signature.texts text = .ok texts) :
    Signature.elements text = ArgumentsPattern.elements texts.arguments := by
  unfold Signature.elements
  rw [h]

/-- **Argument types match one by one.** A signature compares all argument types of a call at once,
as one text. It fits when its elements fit the types one by one, or, around an ellipsis, when those
in front of it fit the first types and those behind it the last ones. -/
theorem Signature.matchesArguments_iff {text : String} {signature : Signature}
    {types : List String} (h : Signature.parse text = .ok signature) (hne : types ≠ [])
    (htypes : ∀ type ∈ types, type ≠ "" ∧ ',' ∉ type.toList) :
    signature.matchesArguments (",".intercalate types) = true ↔
      (ArgumentsPattern.ellipsis ∉ Signature.elements text ∧
        List.Forall₂ ArgumentsPattern.Fits (Signature.elements text) types) ∨
      ∃ before after front between back,
        Signature.elements text = before ++ ArgumentsPattern.ellipsis :: after ∧
        types = front ++ (between ++ back) ∧
        List.Forall₂ ArgumentsPattern.Fits before front ∧
        List.Forall₂ ArgumentsPattern.Fits after back := by
  obtain ⟨texts, htexts, _, _, hparse⟩ := Signature.parse_eq_ok h
  rw [Signature.elements_eq htexts]
  unfold Signature.matchesArguments
  rw [ArgumentsPattern.matchesJoined_iff hparse hne htypes]
  constructor
  · intro hmatches
    by_cases hmem : ArgumentsPattern.ellipsis ∈ ArgumentsPattern.elements texts.arguments
    · obtain ⟨before, after, hcs⟩ := List.append_of_mem hmem
      obtain ⟨front, between, back, hsplit, hfront, hback⟩ :=
        (ArgumentsPattern.aligns_iff_of_eq_append hparse hcs fun t ht => (htypes t ht).1).1 hmatches
      exact .inr ⟨before, after, front, between, back, hcs, hsplit, hfront, hback⟩
    · exact .inl ⟨hmem, (ArgumentsPattern.aligns_iff_of_not_mem hparse hmem).1 hmatches⟩
  · rintro (⟨hmem, hfits⟩ | ⟨before, after, front, between, back, hcs, hsplit, hfront, hback⟩)
    · exact (ArgumentsPattern.aligns_iff_of_not_mem hparse hmem).2 hfits
    · exact (ArgumentsPattern.aligns_iff_of_eq_append hparse hcs fun t ht => (htypes t ht).1).2
        ⟨front, between, back, hsplit, hfront, hback⟩

theorem Signature.matchesArguments_iff_between :
    ∃ signature, Signature.parse "T f(int, .., String)" = .ok signature ∧
      signature.matchesArguments (",".intercalate ["int", "a.B", "java.lang.String"]) = true := by
  obtain ⟨signature, h⟩ :
      ∃ signature, Signature.parse "T f(int, .., String)" = .ok signature := ⟨_, rfl⟩
  have hint : ArgumentsPattern.Fits "int".toList "int" := ⟨_, rfl, by decide +kernel⟩
  have hstring : ArgumentsPattern.Fits "String".toList "java.lang.String" :=
    ⟨_, rfl, by decide +kernel⟩
  exact ⟨signature, h, (Signature.matchesArguments_iff h (by decide) (by decide)).2 <|
    .inr ⟨["int".toList], ["String".toList], ["int"], ["a.B"], ["java.lang.String"],
      by decide +kernel, rfl, .cons hint .nil, .cons hstring .nil⟩⟩

end CallRefactor
