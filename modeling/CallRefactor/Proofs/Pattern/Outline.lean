import CallRefactor.Proofs.Pattern.Glob
import CallRefactor.Proofs.Success
import CallRefactor.Proofs.Text.Split

/-!
# The outline of a type pattern

A type pattern is written as segments joined by one or two dots, with a star and two dots in front
of them at will and pairs of brackets behind them. Its outline says which: a text is a pattern
exactly when some outline spells it, and the outline says what the pattern is read as.

Main statement: `Path.parse_eq_ok_iff`.
-/

namespace CallRefactor.Pattern

open Gapped

/-! ## Characters of a pattern -/

theorem isAlphanumeric_of_isBlank {c : Char} (h : Unicode.isBlank c = true) :
    Unicode.isAlphanumeric c = false := by
  have hall : ∀ r ∈ Unicode.blankRanges, ∀ n ∈ List.range' r.1 (r.2 + 1 - r.1),
      (Unicode.inRanges Unicode.alphabeticRanges n || Unicode.inRanges Unicode.decimalDigitRanges n
        || Unicode.inRanges Unicode.otherNumberRanges n) = false := by decide +kernel
  obtain ⟨r, hr, hlo, hhi⟩ := (Unicode.inRanges_iff (by decide)).1 h
  exact hall r hr c.toNat (List.mem_range'_1.2 (by omega))

theorem isBlank_of_isPatternChar {c : Char} (h : isPatternChar c = true) :
    Unicode.isBlank c = false := by
  rw [Bool.eq_false_iff]
  intro hblank
  simp only [isPatternChar, isAlphanumeric_of_isBlank hblank, Bool.false_or, Bool.or_eq_true,
    decide_eq_true_eq] at h
  rcases h with (rfl | rfl) | rfl <;> exact absurd hblank (by decide)

/-- A nonempty text of characters of which a pattern may be made. -/
def IsSegment (cs : List Char) : Prop := cs ≠ [] ∧ ∀ c ∈ cs, isPatternChar c = true

theorem IsSegment.dot_not_mem {cs : List Char} (h : IsSegment cs) : '.' ∉ cs :=
  fun hdot => absurd (h.2 '.' hdot) (by decide +kernel)

/-! ## Dimensions -/

/-- Pairs of brackets, with any blanks around them. -/
inductive Brackets : Nat → List Char → Prop where
  /-- Nothing. -/
  | nil : Brackets 0 []
  /-- One more blank. -/
  | blank {count : Nat} {cs : List Char} {c : Char} (h : Brackets count cs)
    (hc : Unicode.isBlank c = true) : Brackets count (cs ++ [c])
  /-- One more pair. -/
  | pair {count : Nat} {cs : List Char} (h : Brackets count cs) :
    Brackets (count + 1) (cs ++ ['[', ']'])

theorem dimensions_blank {c : Char} (hc : Unicode.isBlank c = true) (cs : List Char) :
    Path.dimensions (c :: cs) = Path.dimensions cs := by
  cases cs with
  | nil => exact if_pos hc
  | cons d cs => exact if_pos hc

theorem dimensions_pair (cs : List Char) :
    Path.dimensions (']' :: '[' :: cs) =
      ((Path.dimensions cs).1 + 1, (Path.dimensions cs).2) := by
  have hblank : ¬ Unicode.isBlank ']' = true := by decide
  rw [Path.dimensions, if_neg hblank, if_pos ⟨rfl, rfl⟩]

theorem dimensions_of_isPatternChar {c : Char} (hc : isPatternChar c = true) (cs : List Char) :
    Path.dimensions (c :: cs) = (0, c :: cs) := by
  have hblank : ¬ Unicode.isBlank c = true := by simp [isBlank_of_isPatternChar hc]
  have hbracket : c ≠ ']' := fun h => absurd (h ▸ hc) (by decide +kernel)
  cases cs with
  | nil => rw [Path.dimensions, if_neg hblank]
  | cons d cs => rw [Path.dimensions, if_neg hblank, if_neg fun h => hbracket h.1]

/-- Read backwards, pairs of brackets are counted and dropped. -/
theorem dimensions_reverse {count : Nat} {tail : List Char} (h : Brackets count tail)
    (cs : List Char) :
    Path.dimensions (tail.reverse ++ cs) =
      ((Path.dimensions cs).1 + count, (Path.dimensions cs).2) := by
  induction h with
  | nil => rfl
  | @blank _ tail c _ hc ih =>
    have hback : (tail ++ [c]).reverse ++ cs = c :: (tail.reverse ++ cs) := by simp
    rw [hback, dimensions_blank hc, ih]
  | @pair _ tail _ ih =>
    have hback : (tail ++ ['[', ']']).reverse ++ cs = ']' :: '[' :: (tail.reverse ++ cs) := by simp
    rw [hback, dimensions_pair, ih, Nat.add_assoc]

/-- What is counted and dropped are pairs of brackets. -/
theorem exists_brackets (cs : List Char) :
    ∃ tail, Brackets (Path.dimensions cs).1 tail ∧
      cs.reverse = (Path.dimensions cs).2.reverse ++ tail := by
  induction cs using Path.dimensions.induct with
  | case1 => exact ⟨[], .nil, rfl⟩
  | case2 c hc =>
    rw [dimensions_blank hc]
    exact ⟨[c], .blank .nil hc, rfl⟩
  | case3 c hc =>
    rw [Path.dimensions, if_neg hc]
    exact ⟨[], .nil, rfl⟩
  | case4 c d rest hc ih =>
    obtain ⟨tail, htail, hrest⟩ := ih
    rw [dimensions_blank hc, List.reverse_cons, hrest, List.append_assoc]
    exact ⟨tail ++ [c], .blank htail hc, rfl⟩
  | case5 c d rest hc hpair ih =>
    obtain ⟨rfl, rfl⟩ := hpair
    obtain ⟨tail, htail, hrest⟩ := ih
    rw [dimensions_pair, List.reverse_cons, List.reverse_cons, hrest]
    exact ⟨tail ++ ['[', ']'], .pair htail, by simp⟩
  | case6 c d rest hc hpair =>
    rw [Path.dimensions, if_neg hc, if_neg hpair]
    exact ⟨[], .nil, (List.append_nil _).symm⟩

/-- A type pattern is cut in front of its pairs of brackets. -/
theorem splitDimensions_append {base tail : List Char} {count : Nat} {c : Char}
    (hc : isPatternChar c = true) (h : Brackets count tail) :
    Path.splitDimensions (base ++ [c] ++ tail) = (count, base ++ [c]) := by
  unfold Path.splitDimensions
  have hback : (base ++ [c]).reverse = c :: base.reverse := by simp
  rw [List.reverse_append, dimensions_reverse h, hback, dimensions_of_isPatternChar hc,
    Nat.zero_add, ← hback, List.reverse_reverse]

theorem exists_eq_append_brackets (cs : List Char) :
    ∃ tail, Brackets (Path.splitDimensions cs).1 tail ∧
      cs = (Path.splitDimensions cs).2 ++ tail := by
  obtain ⟨tail, htail, hcs⟩ := exists_brackets cs.reverse
  exact ⟨tail, htail, by rwa [List.reverse_reverse] at hcs⟩

/-! ## Segments -/

theorem segment_eq_ok_iff {whole : String} {cs : List Char} {glob : Glob} :
    Path.segment whole cs = .ok glob ↔ IsSegment cs ∧ glob = segmentGlob cs := by
  unfold Path.segment segmentGlob IsSegment
  by_cases hne : cs = []
  · subst hne
    exact ⟨nofun, fun h => absurd rfl h.1.1⟩
  · rw [if_neg (by simpa using hne)]
    by_cases hall : cs.all isPatternChar = true
    · rw [if_neg (not_not_intro hall)]
      have hgood : cs ≠ [] ∧ ∀ c ∈ cs, isPatternChar c = true := ⟨hne, List.all_eq_true.1 hall⟩
      by_cases hstar : cs = ['*']
      · rw [if_pos hstar, if_pos hstar]
        exact ⟨fun h => ⟨hgood, (Except.ok.inj h).symm⟩, fun h => by rw [h.2]⟩
      · rw [if_neg hstar, if_neg hstar]
        exact ⟨fun h => ⟨hgood, (Except.ok.inj h).symm⟩, fun h => by rw [h.2]⟩
    · rw [if_pos hall]
      exact ⟨nofun, fun h => absurd (List.all_eq_true.2 h.1.2) hall⟩

section Segments

variable {whole : String} {p cs : List Char} {path : Path}

theorem stretch_eq_ok_iff {globs : List Glob} (hp : '.' ∉ p) :
    Path.stretch whole p = .ok globs ↔ IsSegment p ∧ globs = [segmentGlob p] := by
  unfold Path.stretch
  rw [Text.splitOn_of_not_mem hp, mapM_eq_ok_iff]
  constructor
  · intro h
    cases h with
    | cons hglob hrest =>
      cases hrest
      obtain ⟨hsegment, rfl⟩ := segment_eq_ok_iff.1 hglob
      exact ⟨hsegment, rfl⟩
  · rintro ⟨hsegment, rfl⟩
    exact .cons (segment_eq_ok_iff.2 ⟨hsegment, rfl⟩) .nil

theorem stretch_append_eq_ok_iff {globs : List Glob} (hp : '.' ∉ p) :
    Path.stretch whole (p ++ '.' :: cs) = .ok globs ↔
      ∃ rest, IsSegment p ∧ Path.stretch whole cs = .ok rest ∧ globs = segmentGlob p :: rest := by
  unfold Path.stretch
  rw [Text.splitOn_append_cons hp, List.mapM_cons, bind_eq_ok_iff]
  constructor
  · rintro ⟨glob, hglob, h⟩
    obtain ⟨rest, hrest, h⟩ := bind_eq_ok_iff.1 h
    obtain ⟨hsegment, rfl⟩ := segment_eq_ok_iff.1 hglob
    exact ⟨rest, hsegment, hrest, (Except.ok.inj h).symm⟩
  · rintro ⟨rest, hsegment, hrest, rfl⟩
    exact ⟨_, segment_eq_ok_iff.2 ⟨hsegment, rfl⟩, bind_eq_ok_iff.2 ⟨rest, hrest, rfl⟩⟩

/-- The items of stretches with a gap between two of them. -/
def joinStretches (stretches : List (List Glob)) : Path :=
  [Item.gap].intercalate (stretches.map (·.map Item.one))

theorem segments_eq_ok_iff_exists :
    Path.segments whole cs = .ok path ↔
      ∃ stretches, (Text.splitOnPair '.' cs).mapM (Path.stretch whole) = .ok stretches ∧
        joinStretches stretches = path :=
  map_eq_ok_iff

theorem segments_of_not_mem (hp : '.' ∉ p) :
    Path.segments whole p = .ok path ↔ IsSegment p ∧ path = [.one (segmentGlob p)] := by
  rw [segments_eq_ok_iff_exists, Text.splitOnPair_of_not_mem hp]
  constructor
  · rintro ⟨stretches, hstretches, rfl⟩
    rw [mapM_eq_ok_iff] at hstretches
    cases hstretches with
    | cons hglobs hrest =>
      cases hrest
      obtain ⟨hsegment, rfl⟩ := (stretch_eq_ok_iff hp).1 hglobs
      exact ⟨hsegment, rfl⟩
  · rintro ⟨hsegment, rfl⟩
    exact ⟨[[segmentGlob p]],
      mapM_eq_ok_iff.2 (.cons ((stretch_eq_ok_iff hp).2 ⟨hsegment, rfl⟩) .nil), rfl⟩

/-- Two dots behind a segment are a gap. -/
theorem segments_append_pair (hp : '.' ∉ p) :
    Path.segments whole (p ++ '.' :: '.' :: cs) = .ok path ↔
      ∃ rest, IsSegment p ∧ Path.segments whole cs = .ok rest ∧
        path = .one (segmentGlob p) :: .gap :: rest := by
  simp only [segments_eq_ok_iff_exists]
  rw [Text.splitOnPair_append_pair hp]
  obtain ⟨piece, pieces, hpieces⟩ :=
    List.exists_cons_of_ne_nil (Text.splitOnPair_ne_nil '.' cs)
  constructor
  · rintro ⟨stretches, hstretches, rfl⟩
    rw [mapM_eq_ok_iff] at hstretches
    cases hstretches with
    | @cons _ globs _ stretches hglobs hrest =>
      obtain ⟨hsegment, rfl⟩ := (stretch_eq_ok_iff hp).1 hglobs
      refine ⟨_, hsegment, ⟨stretches, mapM_eq_ok_iff.2 hrest, rfl⟩, ?_⟩
      rw [hpieces] at hrest
      cases hrest with
      | cons => rfl
  · rintro ⟨_, hsegment, ⟨stretches, hstretches, rfl⟩, rfl⟩
    rw [mapM_eq_ok_iff] at hstretches
    refine ⟨[segmentGlob p] :: stretches,
      mapM_eq_ok_iff.2 (.cons ((stretch_eq_ok_iff hp).2 ⟨hsegment, rfl⟩) hstretches), ?_⟩
    rw [hpieces] at hstretches
    cases hstretches with
    | cons => rfl

/-- A single dot behind a segment only parts it from the next one. -/
theorem segments_append_single (hp : '.' ∉ p) (hcs : cs.head? ≠ some '.') :
    Path.segments whole (p ++ '.' :: cs) = .ok path ↔
      ∃ rest, IsSegment p ∧ Path.segments whole cs = .ok rest ∧
        path = .one (segmentGlob p) :: rest := by
  simp only [segments_eq_ok_iff_exists]
  rw [Text.splitOnPair_append_single hp hcs]
  obtain ⟨piece, pieces, hpieces⟩ :=
    List.exists_cons_of_ne_nil (Text.splitOnPair_ne_nil '.' cs)
  rw [hpieces, List.modifyHead_cons]
  have hjoin : ∀ glob globs stretches, joinStretches ((glob :: globs) :: stretches) =
      .one glob :: joinStretches (globs :: stretches) := by
    intro glob globs stretches
    cases stretches <;> rfl
  constructor
  · rintro ⟨stretches, hstretches, rfl⟩
    rw [mapM_eq_ok_iff] at hstretches
    cases hstretches with
    | @cons _ globs _ stretches hglobs hrest =>
      obtain ⟨globs, hsegment, hpiece, rfl⟩ := (stretch_append_eq_ok_iff hp).1 hglobs
      exact ⟨_, hsegment, ⟨globs :: stretches, mapM_eq_ok_iff.2 (.cons hpiece hrest), rfl⟩,
        hjoin _ _ _⟩
  · rintro ⟨_, hsegment, ⟨stretches, hstretches, rfl⟩, rfl⟩
    rw [mapM_eq_ok_iff] at hstretches
    cases hstretches with
    | @cons _ globs _ stretches hglobs hrest =>
      refine ⟨(segmentGlob p :: globs) :: stretches, mapM_eq_ok_iff.2 (.cons ?_ hrest),
        hjoin _ _ _⟩
      exact (stretch_append_eq_ok_iff hp).2 ⟨globs, hsegment, hglobs, rfl⟩

end Segments

/-! ## Outlines -/

/-- A segment behind the dots in front of it. -/
def joined (step : Step (List Char)) : List Char :=
  (if step.wide then ['.', '.'] else ['.']) ++ step.item

/-- What is read as a path is made of segments, joined by one dot or by two. -/
theorem exists_of_segments_eq_ok {whole : String} {cs : List Char} {path : Path}
    (h : Path.segments whole cs = .ok path) :
    ∃ (first : List Char) (later : List (Step (List Char))),
      (∀ segment ∈ first :: later.map Step.item, IsSegment segment) ∧
      cs = first ++ later.flatMap joined ∧
      path = ofSteps ((⟨false, first⟩ :: later).map (Step.map segmentGlob)) := by
  -- what is read behind the first joint is shorter, whether the joint has one dot or two
  induction hn : cs.length using Nat.strongRecOn generalizing cs path with
  | ind n ih =>
    subst hn
    by_cases hdot : '.' ∈ cs
    · obtain ⟨p, r, rfl, hp⟩ := List.eq_append_cons_of_mem hdot
      by_cases hr : r.head? = some '.'
      · obtain ⟨r, rfl⟩ := List.head?_eq_some_iff.1 hr
        obtain ⟨rest, hsegment, hrest, rfl⟩ := (segments_append_pair hp).1 h
        obtain ⟨first, later, hsegments, rfl, rfl⟩ :=
          ih _ (by simp only [List.length_append, List.length_cons]; omega) hrest rfl
        exact ⟨p, ⟨true, first⟩ :: later, List.forall_mem_cons.2 ⟨hsegment, hsegments⟩, rfl, rfl⟩
      · obtain ⟨rest, hsegment, hrest, rfl⟩ := (segments_append_single hp hr).1 h
        obtain ⟨first, later, hsegments, rfl, rfl⟩ :=
          ih _ (by simp only [List.length_append, List.length_cons]; omega) hrest rfl
        exact ⟨p, ⟨false, first⟩ :: later, List.forall_mem_cons.2 ⟨hsegment, hsegments⟩, rfl, rfl⟩
    · obtain ⟨hsegment, rfl⟩ := (segments_of_not_mem hdot).1 h
      exact ⟨cs, [], List.forall_mem_singleton.2 hsegment, (List.append_nil cs).symm, rfl⟩

/-- Segments that are joined by one dot or by two are read as a path. -/
theorem segments_flatMap_joined (whole : String) {first : List Char}
    {later : List (Step (List Char))}
    (h : ∀ segment ∈ first :: later.map Step.item, IsSegment segment) :
    Path.segments whole (first ++ later.flatMap joined) =
      .ok (ofSteps ((⟨false, first⟩ :: later).map (Step.map segmentGlob))) := by
  induction later generalizing first with
  | nil =>
    have hsegment := List.forall_mem_singleton.1 h
    rw [List.flatMap_nil, List.append_nil, segments_of_not_mem hsegment.dot_not_mem]
    exact ⟨hsegment, rfl⟩
  | cons step later ih =>
    obtain ⟨hsegment, hlater⟩ := List.forall_mem_cons.1 h
    have hitem : IsSegment step.item := hlater _ List.mem_cons_self
    obtain ⟨wide, item⟩ := step
    cases wide with
    | false =>
      -- the next segment begins with a character other than a dot
      have hhead : (item ++ later.flatMap joined).head? ≠ some '.' := by
        rw [List.head?_append_of_ne_nil _ hitem.1]
        exact fun h => hitem.dot_not_mem (List.mem_of_head? h)
      exact (segments_append_single hsegment.dot_not_mem hhead).2
        ⟨_, hsegment, ih hlater, rfl⟩
    | true => exact (segments_append_pair hsegment.dot_not_mem).2 ⟨_, hsegment, ih hlater, rfl⟩

/-- The outline of a type pattern. -/
structure Outline where
  /-- A star and two dots stand in front. -/
  leading : Bool
  /-- The first segment. -/
  first : List Char
  /-- The other segments, with two dots in front of them or with one. -/
  later : List (Step (List Char))
  /-- The number of pairs of brackets. -/
  dimensions : Nat

/-- The segments of a pattern with the brackets behind the last one. -/
def bracketed (dimensions : Nat) : List (Step (List Char)) → List (Step Word)
  | [] => []
  | [step] => [⟨step.wide, step.item, dimensions⟩]
  | step :: next :: rest => ⟨step.wide, step.item, 0⟩ :: bracketed dimensions (next :: rest)

theorem withDimensions_append (count : Nat) (p : Path) {q : Path} (hq : q ≠ []) :
    Path.withDimensions count (p ++ q) = p ++ Path.withDimensions count q := by
  induction p with
  | nil => rfl
  | cons item p ih =>
    rw [List.cons_append, List.cons_append, ← ih]
    obtain ⟨next, rest, hrest⟩ :=
      List.exists_cons_of_ne_nil (List.append_ne_nil_of_right_ne_nil p hq)
    rw [hrest]
    cases item <;> rfl

/-- Brackets are appended to the last segment. -/
theorem withDimensions_ofSteps (count : Nat) (steps : List (Step (List Char))) :
    Path.withDimensions count (ofSteps (steps.map (Step.map segmentGlob))) =
      ofSteps ((bracketed count steps).map (Step.map Word.glob)) := by
  induction steps using bracketed.induct with
  | case1 => rfl
  | case2 step =>
    obtain ⟨wide, item⟩ := step
    cases wide <;> rfl
  | case3 step next rest ih =>
    have hglob : Step.map segmentGlob step = Step.map Word.glob ⟨step.wide, step.item, 0⟩ := by
      unfold Step.map Word.glob
      rw [List.replicate_zero, List.flatten_nil, List.append_nil]
    have hne : ofSteps ((next :: rest).map (Step.map segmentGlob)) ≠ [] := by
      obtain ⟨wide, item⟩ := next
      cases wide <;> exact List.cons_ne_nil _ _
    rw [bracketed, List.map_cons, List.map_cons, hglob]
    show Path.withDimensions count (_ ++ ofSteps ((next :: rest).map (Step.map segmentGlob))) = _
    rw [withDimensions_append count _ hne, ih]
    rfl

namespace Outline

/-- The text of an outline without its brackets. -/
def base (o : Outline) : List Char :=
  (if o.leading then ['*', '.', '.'] else []) ++ (o.first ++ o.later.flatMap joined)

/-- An outline spells a text if the text is made up as the outline says. A star and two dots at the
beginning are never read as a segment and a joint. -/
structure Spells (o : Outline) (cs : List Char) : Prop where
  /-- The segments are made of characters of a pattern. -/
  segments : ∀ segment ∈ o.first :: o.later.map Step.item, IsSegment segment
  /-- Whether a star and two dots stand in front. -/
  leading : ['*', '.', '.'] <+: o.base → o.leading = true
  /-- The segments are joined, and brackets follow. -/
  text : ∃ tail, Brackets o.dimensions tail ∧ cs = o.base ++ tail

/-- The steps of an outline. -/
def steps (o : Outline) : List (Step Word) :=
  bracketed o.dimensions (⟨o.leading, o.first⟩ :: o.later)

/-- The path that an outline is read as. -/
def path (o : Outline) : Path := ofSteps (o.steps.map (Step.map Word.glob))

theorem path_eq (o : Outline) :
    o.path = Path.withDimensions o.dimensions
      (ofSteps ((⟨o.leading, o.first⟩ :: o.later).map (Step.map segmentGlob))) :=
  (withDimensions_ofSteps o.dimensions _).symm

/-- The text of an outline ends with a character of its last segment. -/
theorem exists_base_eq_concat {o : Outline}
    (h : ∀ segment ∈ o.first :: o.later.map Step.item, IsSegment segment) :
    ∃ front c, o.base = front ++ [c] ∧ isPatternChar c = true := by
  obtain ⟨front, segment, hsegment, hbase⟩ :
      ∃ front segment, IsSegment segment ∧ o.base = front ++ segment := by
    unfold base
    rcases List.eq_nil_or_concat' o.later with hlater | ⟨later, last, hlater⟩
    · rw [hlater, List.flatMap_nil, List.append_nil]
      exact ⟨_, _, h _ List.mem_cons_self, rfl⟩
    · have hlast : last ∈ o.later := by simp [hlater]
      rw [hlater, List.flatMap_append, List.flatMap_singleton, joined]
      simp only [← List.append_assoc]
      exact ⟨_, _, h _ (List.mem_cons_of_mem _ (List.mem_map_of_mem hlast)), rfl⟩
  rcases List.eq_nil_or_concat' segment with rfl | ⟨stem, c, rfl⟩
  · exact absurd rfl hsegment.1
  · exact ⟨front ++ stem, c, by rw [hbase, List.append_assoc], hsegment.2 c (by simp)⟩

end Outline

theorem Path.exists_spells {cs : List Char} {path : Path} (h : Path.parse cs = .ok path) :
    ∃ outline : Outline, outline.Spells cs ∧ path = outline.path := by
  obtain ⟨tail, htail, hcs⟩ := exists_eq_append_brackets cs
  unfold Path.parse at h
  generalize Path.splitDimensions cs = cut at h htail hcs
  obtain ⟨count, base⟩ := cut
  subst hcs
  simp only at h
  split at h
  · cases h
  split at h
  · next rest hrest =>
    obtain ⟨inner, hinner, rfl⟩ := map_eq_ok_iff.1 h
    obtain ⟨first, later, hsegments, rfl, rfl⟩ := exists_of_segments_eq_ok hinner
    refine ⟨⟨true, first, later, count⟩, ⟨hsegments, fun _ => rfl, tail, htail, ?_⟩, ?_⟩
    · rw [← List.isPrefixOf?_eq_some_iff_append_eq.1 hrest]
      rfl
    · rw [Outline.path_eq]
      rfl
  · next hnone =>
    obtain ⟨inner, hinner, rfl⟩ := map_eq_ok_iff.1 h
    obtain ⟨first, later, hsegments, rfl, rfl⟩ := exists_of_segments_eq_ok hinner
    refine ⟨⟨false, first, later, count⟩, ⟨hsegments, ?_, tail, htail, rfl⟩, ?_⟩
    · rintro ⟨rest, hrest⟩
      cases hnone.symm.trans (List.isPrefixOf?_eq_some_iff_append_eq.2 hrest)
    · rw [Outline.path_eq]

theorem Outline.Spells.parse_eq {o : Outline} {cs : List Char} (ho : o.Spells cs) :
    Path.parse cs = .ok o.path := by
  obtain ⟨tail, htail, rfl⟩ := ho.text
  obtain ⟨front, c, hbase, hc⟩ := Outline.exists_base_eq_concat ho.segments
  have hcut : Path.splitDimensions (o.base ++ tail) = (o.dimensions, o.base) := by
    rw [hbase, splitDimensions_append hc htail]
  have hne : ¬ o.base.isEmpty = true := by simp [hbase]
  unfold Path.parse
  rw [hcut]
  simp only
  rw [if_neg hne, Outline.path_eq]
  cases hleading : o.leading with
  | true =>
    have hsome : ['*', '.', '.'].isPrefixOf? o.base =
        some (o.first ++ o.later.flatMap joined) :=
      List.isPrefixOf?_eq_some_iff_append_eq.2 (by rw [Outline.base, if_pos hleading])
    rw [hsome]
    exact map_eq_ok_iff.2 ⟨_, segments_flatMap_joined _ ho.segments, rfl⟩
  | false =>
    have hnone : ['*', '.', '.'].isPrefixOf? o.base = none := by
      rw [Option.eq_none_iff_forall_not_mem]
      intro rest hrest
      have hprefix := ho.leading ⟨rest, List.isPrefixOf?_eq_some_iff_append_eq.1 hrest⟩
      rw [hleading] at hprefix
      cases hprefix
    have hbase' : o.base = o.first ++ o.later.flatMap joined := by
      rw [Outline.base, hleading]
      rfl
    rw [hnone, hbase']
    exact map_eq_ok_iff.2 ⟨_, segments_flatMap_joined _ ho.segments, rfl⟩

/-- **Reading a type pattern.** A text is a type pattern exactly when some outline spells it, and
the outline says what the pattern is read as. -/
theorem Path.parse_eq_ok_iff {cs : List Char} {path : Path} :
    Path.parse cs = .ok path ↔ ∃ outline : Outline, outline.Spells cs ∧ path = outline.path := by
  constructor
  · exact exists_spells
  · rintro ⟨outline, hspells, rfl⟩
    exact hspells.parse_eq

end CallRefactor.Pattern
