import CallRefactor.Pattern.Path
import CallRefactor.Proofs.Pattern.Gapped
import CallRefactor.Proofs.Pattern.Regex

/-!
# Words that a glob fits

The expression of a glob fits the words that the glob is aligned with. They are the words that come
out when every star of it is replaced by a run of characters that a star may stand for. A star alone
is replaced by one character at least.

Main statements: `mem_regex_iff`, `aligns_ofStars_iff`, and `accepts_word_iff`, the words that a
segment of a qualified type pattern fits, with its pairs of brackets.
-/

namespace CallRefactor.Pattern

variable {wild : CharClass} {cs word : List Char}

/-! ## Stars and runs -/

namespace Glob

/-- A text with its stars replaced by runs, in order. -/
def fill : List Char → List (List Char) → List Char
  | [], _ => []
  | c :: cs, runs => if c = '*' then runs.headD [] ++ fill cs runs.tail else c :: fill cs runs

theorem fill_of_not_mem (h : '*' ∉ cs) : fill cs [] = cs := by
  induction cs with
  | nil => rfl
  | cons c cs ih =>
    rw [fill, if_neg (List.ne_of_not_mem_cons h).symm, ih (List.not_mem_of_not_mem_cons h)]

/-- Whether a letter of a glob takes a character. -/
def takes (wild : CharClass) (letter : Letter) (c : Char) : Bool := (letter.charClass wild).has c

/-- The expression of a glob fits the words that the glob is aligned with. -/
theorem mem_regex_iff {glob : Glob} :
    word ∈ (glob.regex wild).language ↔ Gapped.Aligns (takes wild) wild.has glob word := by
  induction glob generalizing word with
  | nil =>
    rw [regex, Regex.mem_empty_iff]
    constructor
    · rintro rfl
      exact .nil
    · intro h
      cases h
      rfl
  | cons item glob ih =>
    cases item with
    | one letter =>
      rw [regex, Regex.mem_append_iff, Gapped.aligns_one_iff]
      constructor
      · rintro ⟨_, rest, rfl, ⟨c, rfl, hc⟩, hrest⟩
        exact ⟨c, rest, rfl, hc, ih.1 hrest⟩
      · rintro ⟨c, rest, rfl, hc, hrest⟩
        exact ⟨[c], rest, rfl, ⟨c, rfl, hc⟩, ih.2 hrest⟩
    | gap =>
      rw [regex, Regex.mem_append_iff, Gapped.aligns_gap_iff]
      simp only [Regex.mem_star_char_iff, ih]

/-- A glob of letters and stars fits the words that come out when runs replace the stars. -/
theorem aligns_ofStars_iff :
    Gapped.Aligns (takes wild) wild.has (ofStars cs) word ↔
      ∃ runs, runs.length = cs.count '*' ∧ (∀ run ∈ runs, ∀ c ∈ run, wild.has c = true) ∧
        fill cs runs = word := by
  induction cs generalizing word with
  | nil =>
    constructor
    · intro h
      cases h
      exact ⟨[], rfl, nofun, rfl⟩
    · rintro ⟨_, _, _, rfl⟩
      exact .nil
  | cons c cs ih =>
    by_cases hc : c = '*'
    · subst hc
      show Gapped.Aligns (takes wild) wild.has (.gap :: ofStars cs) word ↔ _
      rw [Gapped.aligns_gap_iff, List.count_cons_self]
      constructor
      · rintro ⟨run, rest, rfl, hrun, hrest⟩
        obtain ⟨runs, hlength, hruns, rfl⟩ := ih.1 hrest
        exact ⟨run :: runs, by rw [List.length_cons, hlength],
          List.forall_mem_cons.2 ⟨hrun, hruns⟩, rfl⟩
      · rintro ⟨runs, hlength, hruns, rfl⟩
        obtain ⟨run, runs, rfl⟩ := List.exists_cons_of_length_eq_add_one hlength
        obtain ⟨hrun, hruns⟩ := List.forall_mem_cons.1 hruns
        exact ⟨run, _, rfl, hrun, ih.2 ⟨runs, Nat.succ.inj hlength, hruns, rfl⟩⟩
    · have hglob : ofStars (c :: cs) = .one (.exactly c) :: ofStars cs := by
        unfold ofStars
        rw [List.map_cons, if_neg hc]
      rw [hglob, Gapped.aligns_one_iff, List.count_cons_of_ne (by simpa using hc)]
      constructor
      · rintro ⟨d, rest, rfl, hd, hrest⟩
        obtain rfl : c = d := of_decide_eq_true hd
        obtain ⟨runs, hlength, hruns, rfl⟩ := ih.1 hrest
        exact ⟨runs, hlength, hruns, by rw [fill, if_neg hc]⟩
      · rintro ⟨runs, hlength, hruns, hfill⟩
        rw [fill, if_neg hc] at hfill
        exact ⟨c, _, hfill.symm, decide_eq_true rfl, ih.2 ⟨runs, hlength, hruns, rfl⟩⟩

theorem aligns_ofStars_of_not_mem (h : '*' ∉ cs) :
    Gapped.Aligns (takes wild) wild.has (ofStars cs) word ↔ word = cs := by
  rw [aligns_ofStars_iff, List.count_eq_zero.2 h]
  constructor
  · rintro ⟨runs, hlength, _, rfl⟩
    rw [List.length_eq_zero_iff.1 hlength, fill_of_not_mem h]
  · rintro rfl
    exact ⟨[], rfl, nofun, fill_of_not_mem h⟩

theorem aligns_anyRun_iff :
    Gapped.Aligns (takes wild) wild.has anyRun word ↔
      word ≠ [] ∧ ∀ c ∈ word, wild.has c = true := by
  unfold anyRun
  rw [Gapped.aligns_one_iff]
  constructor
  · rintro ⟨c, rest, rfl, hc, hrest⟩
    obtain ⟨run, _, rfl, hrun, hnil⟩ := Gapped.aligns_gap_iff.1 hrest
    cases hnil
    refine ⟨List.cons_ne_nil _ _, List.forall_mem_cons.2 ⟨hc, ?_⟩⟩
    rw [List.append_nil]
    exact hrun
  · rintro ⟨hne, hword⟩
    obtain ⟨c, rest, rfl⟩ := List.exists_cons_of_ne_nil hne
    obtain ⟨hc, hrest⟩ := List.forall_mem_cons.1 hword
    exact ⟨c, rest, rfl, hc,
      Gapped.aligns_gap_iff.2 ⟨rest, [], (List.append_nil rest).symm, hrest, .nil⟩⟩

end Glob

/-! ## Segments of a type -/

/-- A segment of a qualified type pattern, and the pairs of brackets behind it. -/
structure Word where
  /-- The segment. -/
  segment : List Char
  /-- The number of pairs of brackets. -/
  dimensions : Nat

/-- Pairs of brackets, one behind the other. -/
def brackets (count : Nat) : List Char := (List.replicate count ['[', ']']).flatten

/-- A segment of a pattern stands for the words in which each of its stars is replaced by characters
that are neither dots nor commas, by one of them at least if the star is the whole segment. -/
def StandsFor (segment word : List Char) : Prop :=
  ∃ runs : List (List Char), runs.length = segment.count '*' ∧
    (∀ run ∈ runs, ∀ c ∈ run, c ≠ '.' ∧ c ≠ ',') ∧ (segment = ['*'] → [] ∉ runs) ∧
    Glob.fill segment runs = word

/-- A segment takes the words that it stands for, with its pairs of brackets behind them. -/
def Word.Takes (w : Word) (word : List Char) : Prop :=
  ∃ stem, word = stem ++ brackets w.dimensions ∧ StandsFor w.segment stem

/-- The glob of a segment. -/
def segmentGlob (cs : List Char) : Glob := if cs = ['*'] then Glob.anyRun else Glob.ofStars cs

/-- The glob of a segment with its pairs of brackets. -/
def Word.glob (w : Word) : Glob :=
  segmentGlob w.segment ++ (List.replicate w.dimensions (Glob.ofStars ['[', ']'])).flatten

theorem segmentChars_has_iff {c : Char} :
    Path.segmentChars.has c = true ↔ c ≠ '.' ∧ c ≠ ',' := by
  simp [Path.segmentChars, CharClass.has]

theorem aligns_segmentGlob_iff {segment : List Char} :
    Gapped.Aligns (Glob.takes Path.segmentChars) Path.segmentChars.has (segmentGlob segment) word ↔
      StandsFor segment word := by
  unfold segmentGlob StandsFor
  simp only [← segmentChars_has_iff]
  by_cases hstar : segment = ['*']
  · subst hstar
    rw [if_pos rfl, Glob.aligns_anyRun_iff]
    constructor
    · rintro ⟨hne, hword⟩
      refine ⟨[word], rfl, by simpa using hword, fun _ => by simpa using hne.symm, ?_⟩
      exact List.append_nil word
    · rintro ⟨runs, hlength, hruns, hnil, rfl⟩
      obtain ⟨run, rfl⟩ := List.length_eq_one_iff.1 hlength
      have hfill : Glob.fill ['*'] [run] = run := List.append_nil run
      rw [hfill]
      exact ⟨fun h => hnil rfl (h ▸ List.mem_cons_self), hruns run List.mem_cons_self⟩
  · rw [if_neg hstar, Glob.aligns_ofStars_iff]
    simp only [hstar, false_imp_iff, true_and]

theorem flatten_replicate_ofStars (count : Nat) :
    (List.replicate count (Glob.ofStars ['[', ']'])).flatten = Glob.ofStars (brackets count) := by
  unfold brackets Glob.ofStars
  rw [List.map_flatten, List.map_replicate]

theorem star_not_mem_brackets (count : Nat) : '*' ∉ brackets count := by
  unfold brackets
  rw [List.mem_flatten]
  rintro ⟨l, hl, hmem⟩
  rw [List.eq_of_mem_replicate hl] at hmem
  exact absurd hmem (by decide)

/-- The glob of a segment fits the words that the segment takes. -/
theorem accepts_word_iff {w : Word} :
    (w.glob.regex Path.segmentChars).accepts word = true ↔ w.Takes word := by
  unfold Word.glob Word.Takes
  rw [Regex.accepts_iff, Glob.mem_regex_iff, flatten_replicate_ofStars, Gapped.aligns_append_iff]
  simp only [aligns_segmentGlob_iff, Glob.aligns_ofStars_of_not_mem (star_not_mem_brackets _)]
  constructor
  · rintro ⟨stem, _, rfl, hstem, rfl⟩
    exact ⟨stem, rfl, hstem⟩
  · rintro ⟨stem, rfl, hstem⟩
    exact ⟨stem, _, rfl, hstem, rfl⟩

end CallRefactor.Pattern
