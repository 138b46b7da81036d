import CallRefactor.Pattern.TypePattern
import CallRefactor.Proofs.Pattern.Outline
import CallRefactor.Proofs.Text.Trim

/-!
# The grammar of type patterns

A type pattern is a path of segments with one dot or two between neighbours, and behind it any
number of pairs of brackets, each with blanks in front of it at will. Three dots in a row are in no
path. The star and the two dots that are read as a gap in front of a path are a segment and a joint
like any other here.

Main statements: `Path.exists_parse_iff` and `TypePattern.exists_parse_iff`, the reader accepts
exactly what the grammar produces.
-/

namespace CallRefactor.Pattern

/-! ## Paths and types -/

/-- A path of segments, with one dot or two between neighbours. -/
inductive IsPath : List Char → Prop where
  /-- One segment. -/
  | segment {cs : List Char} (h : IsSegment cs) : IsPath cs
  /-- A segment, a dot and a path. -/
  | dot {p cs : List Char} (hp : IsSegment p) (h : IsPath cs) : IsPath (p ++ '.' :: cs)
  /-- A segment, two dots and a path. -/
  | dots {p cs : List Char} (hp : IsSegment p) (h : IsPath cs) : IsPath (p ++ '.' :: '.' :: cs)

/-- A text of blanks, which may be empty. -/
def IsBlankText (cs : List Char) : Prop := ∀ c ∈ cs, Unicode.isBlank c = true

/-- A type: a path, behind which stand pairs of brackets with blanks in front of them. -/
inductive IsType : List Char → Prop where
  /-- A path alone. -/
  | path {cs : List Char} (h : IsPath cs) : IsType cs
  /-- One more pair of brackets. -/
  | array {cs blanks : List Char} (h : IsType cs) (hblanks : IsBlankText blanks) :
    IsType (cs ++ blanks ++ ['[', ']'])

variable {cs : List Char}

/-! ## How a type begins and ends, and what it is made of -/

theorem isPatternChar_star : isPatternChar '*' = true := by
  simp [isPatternChar]

theorem IsSegment.exists_cons (h : IsSegment cs) :
    ∃ c rest, cs = c :: rest ∧ isPatternChar c = true := by
  obtain ⟨c, rest, rfl⟩ := List.exists_cons_of_ne_nil h.1
  exact ⟨c, rest, rfl, h.2 c List.mem_cons_self⟩

theorem IsSegment.exists_concat (h : IsSegment cs) :
    ∃ front c, cs = front ++ [c] ∧ isPatternChar c = true := by
  rcases List.eq_nil_or_concat' cs with rfl | ⟨front, c, rfl⟩
  · exact absurd rfl h.1
  · exact ⟨front, c, rfl, h.2 c (by simp)⟩

theorem IsPath.exists_cons (h : IsPath cs) : ∃ c rest, cs = c :: rest ∧ isPatternChar c = true := by
  cases h with
  | segment h => exact h.exists_cons
  | dot hp _ =>
    obtain ⟨c, rest, rfl, hc⟩ := hp.exists_cons
    exact ⟨c, _, rfl, hc⟩
  | dots hp _ =>
    obtain ⟨c, rest, rfl, hc⟩ := hp.exists_cons
    exact ⟨c, _, rfl, hc⟩

/-- A path does not begin with a dot, so a dot in front of one is a single dot. -/
theorem IsPath.head?_ne_dot (h : IsPath cs) : cs.head? ≠ some '.' := by
  obtain ⟨c, _, rfl, hc⟩ := h.exists_cons
  intro hdot
  obtain rfl := Option.some.inj hdot
  exact absurd hc (by decide +kernel)

theorem IsPath.exists_concat (h : IsPath cs) :
    ∃ front c, cs = front ++ [c] ∧ isPatternChar c = true := by
  induction h with
  | segment h => exact h.exists_concat
  | @dot p _ _ _ ih =>
    obtain ⟨front, c, rfl, hc⟩ := ih
    exact ⟨p ++ '.' :: front, c, by simp, hc⟩
  | @dots p _ _ _ ih =>
    obtain ⟨front, c, rfl, hc⟩ := ih
    exact ⟨p ++ '.' :: '.' :: front, c, by simp, hc⟩

/-- A type begins with a character of a segment. -/
theorem IsType.exists_cons (h : IsType cs) : ∃ c rest, cs = c :: rest ∧ isPatternChar c = true := by
  induction h with
  | path h => exact h.exists_cons
  | array _ _ ih =>
    obtain ⟨c, rest, rfl, hc⟩ := ih
    exact ⟨c, _, rfl, hc⟩

/-- A type has no blanks at its ends. -/
theorem IsType.trimsTo (h : IsType cs) : Text.TrimsTo Unicode.isBlank cs cs where
  parts := ⟨[], [], nofun, nofun, by simp⟩
  head := by
    obtain ⟨c, rest, rfl, hc⟩ := h.exists_cons
    intro d hd
    obtain rfl := Option.some.inj hd
    exact isBlank_of_isPatternChar hc
  last := by
    intro d hd
    cases h with
    | path h =>
      obtain ⟨front, c, rfl, hc⟩ := h.exists_concat
      obtain rfl : c = d := by simpa using hd
      exact isBlank_of_isPatternChar hc
    | array _ _ =>
      obtain rfl : ']' = d := by simpa using hd
      decide

/-- The characters that a type may be made of. -/
def IsTypeChar (c : Char) : Prop :=
  isPatternChar c = true ∨ Unicode.isBlank c = true ∨ c = '.' ∨ c = '[' ∨ c = ']'

instance : DecidablePred IsTypeChar := fun _ => inferInstanceAs (Decidable (_ ∨ _))

theorem IsBlankText.isTypeChar (h : IsBlankText cs) : ∀ c ∈ cs, IsTypeChar c :=
  fun c hc => .inr (.inl (h c hc))

theorem IsSegment.isTypeChar (h : IsSegment cs) : ∀ c ∈ cs, IsTypeChar c :=
  fun c hc => .inl (h.2 c hc)

theorem IsPath.isTypeChar (h : IsPath cs) : ∀ c ∈ cs, IsTypeChar c := by
  induction h with
  | segment h => exact h.isTypeChar
  | dot hp _ ih =>
    refine List.forall_mem_append.2 ⟨hp.isTypeChar, ?_⟩
    exact List.forall_mem_cons.2 ⟨.inr (.inr (.inl rfl)), ih⟩
  | dots hp _ ih =>
    refine List.forall_mem_append.2 ⟨hp.isTypeChar, ?_⟩
    have hdot : IsTypeChar '.' := .inr (.inr (.inl rfl))
    exact List.forall_mem_cons.2 ⟨hdot, List.forall_mem_cons.2 ⟨hdot, ih⟩⟩

theorem IsType.isTypeChar (h : IsType cs) : ∀ c ∈ cs, IsTypeChar c := by
  induction h with
  | path h => exact h.isTypeChar
  | array _ hblanks ih =>
    refine List.forall_mem_append.2 ⟨List.forall_mem_append.2 ⟨ih, hblanks.isTypeChar⟩, ?_⟩
    intro c hc
    rcases List.mem_pair.1 hc with rfl | rfl
    · exact .inr (.inr (.inr (.inl rfl)))
    · exact .inr (.inr (.inr (.inr rfl)))

/-! ## Reading segments -/

/-- Segments behind each other make up a path. -/
theorem isPath_flatMap_joined {first : List Char} {later : List (Gapped.Step (List Char))}
    (h : ∀ segment ∈ first :: later.map Gapped.Step.item, IsSegment segment) :
    IsPath (first ++ later.flatMap joined) := by
  induction later generalizing first with
  | nil =>
    rw [List.flatMap_nil, List.append_nil]
    exact .segment (h first List.mem_cons_self)
  | cons step later ih =>
    obtain ⟨hfirst, hlater⟩ := List.forall_mem_cons.1 h
    have hrest : IsPath (step.item ++ later.flatMap joined) := ih hlater
    rw [List.flatMap_cons]
    unfold joined
    cases step.wide with
    | false => exact .dot hfirst hrest
    | true => exact .dots hfirst hrest

/-- What is read as segments is a path. -/
theorem exists_segments_iff (whole : String) :
    (∃ path, Path.segments whole cs = .ok path) ↔ IsPath cs := by
  constructor
  · rintro ⟨path, h⟩
    obtain ⟨first, later, hsegments, rfl, _⟩ := exists_of_segments_eq_ok h
    exact isPath_flatMap_joined hsegments
  · intro h
    induction h with
    | segment h => exact ⟨_, (segments_of_not_mem h.dot_not_mem).2 ⟨h, rfl⟩⟩
    | dot hp h ih =>
      obtain ⟨rest, hrest⟩ := ih
      exact ⟨_, (segments_append_single hp.dot_not_mem h.head?_ne_dot).2 ⟨rest, hp, hrest, rfl⟩⟩
    | dots hp _ ih =>
      obtain ⟨rest, hrest⟩ := ih
      exact ⟨_, (segments_append_pair hp.dot_not_mem).2 ⟨rest, hp, hrest, rfl⟩⟩

/-! ## Reading brackets -/

theorem Brackets.append_blanks {count : Nat} {tail blanks : List Char} (h : Brackets count tail)
    (hblanks : IsBlankText blanks) : Brackets count (tail ++ blanks) := by
  induction blanks generalizing tail with
  | nil => rwa [List.append_nil]
  | cons c blanks ih =>
    obtain ⟨hc, hrest⟩ := List.forall_mem_cons.1 hblanks
    rw [List.append_cons]
    exact ih (h.blank hc) hrest

/-- A path with pairs of brackets behind it is a type with blanks behind it. -/
theorem exists_brackets_iff :
    (∃ base tail count, IsPath base ∧ Brackets count tail ∧ cs = base ++ tail) ↔
      ∃ core blanks, IsType core ∧ IsBlankText blanks ∧ cs = core ++ blanks := by
  constructor
  · rintro ⟨base, tail, count, hbase, htail, rfl⟩
    induction htail with
    | nil => exact ⟨base, [], .path hbase, nofun, rfl⟩
    | @blank _ tail c _ hc ih =>
      obtain ⟨core, blanks, hcore, hblanks, hcut⟩ := ih
      refine ⟨core, blanks ++ [c], hcore, ?_, ?_⟩
      · exact List.forall_mem_append.2 ⟨hblanks, List.forall_mem_singleton.2 hc⟩
      · rw [← List.append_assoc, hcut, List.append_assoc]
    | @pair _ tail _ ih =>
      obtain ⟨core, blanks, hcore, hblanks, hcut⟩ := ih
      refine ⟨_, [], hcore.array hblanks, nofun, ?_⟩
      rw [← List.append_assoc, hcut, List.append_nil]
  · rintro ⟨core, blanks, hcore, hblanks, rfl⟩
    suffices hbrackets : ∃ base tail count, IsPath base ∧ Brackets count tail ∧
        core = base ++ tail by
      obtain ⟨base, tail, count, hbase, htail, rfl⟩ := hbrackets
      exact ⟨base, _, count, hbase, htail.append_blanks hblanks, List.append_assoc ..⟩
    clear hblanks
    induction hcore with
    | path h => exact ⟨_, [], 0, h, .nil, (List.append_nil _).symm⟩
    | array _ hinner ih =>
      obtain ⟨base, tail, count, hbase, htail, rfl⟩ := ih
      exact ⟨base, _, count + 1, hbase, (htail.append_blanks hinner).pair, by simp⟩

/-! ## Reading types -/

/-- A path pattern is accepted when what stands in front of its brackets is a path. -/
theorem Path.exists_parse_iff_isPath :
    (∃ path, Path.parse cs = .ok path) ↔ IsPath (Path.splitDimensions cs).2 := by
  unfold Path.parse
  generalize Path.splitDimensions cs = cut
  obtain ⟨count, base⟩ := cut
  simp only
  split
  · next hempty =>
    obtain rfl : base = [] := by simpa using hempty
    refine ⟨nofun, fun h => ?_⟩
    obtain ⟨c, rest, hnil, _⟩ := h.exists_cons
    cases hnil
  split
  · next rest hrest =>
    obtain rfl := List.isPrefixOf?_eq_some_iff_append_eq.1 hrest
    -- the star and the two dots are a segment and a joint
    have hstar : IsSegment ['*'] := ⟨by decide, List.forall_mem_singleton.2 isPatternChar_star⟩
    rw [← exists_segments_iff (String.ofList cs)]
    constructor
    · rintro ⟨path, h⟩
      obtain ⟨inner, hinner, _⟩ := map_eq_ok_iff.1 h
      exact ⟨_, (segments_append_pair (p := ['*']) (by decide)).2 ⟨inner, hstar, hinner, rfl⟩⟩
    · rintro ⟨path, h⟩
      obtain ⟨inner, _, hinner, _⟩ := (segments_append_pair (p := ['*']) (by decide)).1 h
      exact ⟨_, map_eq_ok_iff.2 ⟨inner, hinner, rfl⟩⟩
  · rw [← exists_segments_iff (String.ofList cs)]
    constructor
    · rintro ⟨path, h⟩
      obtain ⟨inner, hinner, _⟩ := map_eq_ok_iff.1 h
      exact ⟨inner, hinner⟩
    · rintro ⟨inner, hinner⟩
      exact ⟨_, map_eq_ok_iff.2 ⟨inner, hinner, rfl⟩⟩

/-- What stands in front of the brackets is a path in a text of a path and brackets behind it. -/
theorem isPath_splitDimensions_iff :
    IsPath (Path.splitDimensions cs).2 ↔
      ∃ base tail count, IsPath base ∧ Brackets count tail ∧ cs = base ++ tail := by
  constructor
  · intro h
    obtain ⟨tail, htail, hcs⟩ := exists_eq_append_brackets cs
    exact ⟨_, tail, _, h, htail, hcs⟩
  · rintro ⟨base, tail, count, hbase, htail, rfl⟩
    obtain ⟨front, c, rfl, hc⟩ := hbase.exists_concat
    rwa [splitDimensions_append hc htail]

/-- Without blanks at its end, a text is read as a path pattern exactly when it is a type. -/
theorem Path.exists_parse_iff (hlast : ∀ c ∈ cs.getLast?, Unicode.isBlank c = false) :
    (∃ path, Path.parse cs = .ok path) ↔ IsType cs := by
  rw [Path.exists_parse_iff_isPath, isPath_splitDimensions_iff, exists_brackets_iff]
  constructor
  · rintro ⟨core, blanks, hcore, hblanks, rfl⟩
    rcases List.eq_nil_or_concat' blanks with rfl | ⟨front, c, rfl⟩
    · rwa [List.append_nil]
    · have hc := hlast c (by simp)
      rw [hblanks c (by simp)] at hc
      cases hc
  · intro h
    exact ⟨cs, [], h, nofun, (List.append_nil cs).symm⟩

end CallRefactor.Pattern

namespace CallRefactor

open Pattern

/-- A text is read as a type pattern exactly when it is a type with blanks around it. -/
theorem TypePattern.exists_parse_iff {text : String} :
    (∃ pattern, TypePattern.parse text = .ok pattern) ↔
      IsType (Text.trimWhile Unicode.isBlank text.toList) := by
  rw [← Path.exists_parse_iff (Text.trimsTo_trimWhile Unicode.isBlank text.toList).last]
  constructor
  · rintro ⟨pattern, h⟩
    obtain ⟨path, hpath, _⟩ := map_eq_ok_iff.1 h
    exact ⟨path, hpath⟩
  · rintro ⟨path, hpath⟩
    exact ⟨_, map_eq_ok_iff.2 ⟨path, hpath, rfl⟩⟩

end CallRefactor
