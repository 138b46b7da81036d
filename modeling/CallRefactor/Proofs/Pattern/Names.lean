import CallRefactor.Proofs.Pattern.Arguments
import CallRefactor.Proofs.Pattern.Glob
import CallRefactor.Rule.Pattern

/-!
# The names that a name pattern fits

A star alone fits every name that is one nonempty line. Any other name pattern, without a star at
its front, is cut at its stars, and fits the names that are its pieces with runs of word characters
and dollar signs between them. So a star at the front changes nothing unless more of them follow,
and a pattern without stars fits itself only.

Main statement: `Signature.matchesName_iff`.
-/

namespace CallRefactor

open Pattern

variable {cs name : List Char} {pattern : NamePattern}

/-! ## Pieces and runs -/

namespace Pattern.Glob

/-- Pieces with runs between them: the first piece, the first run, the second piece, and so on. -/
def interleave (pieces runs : List (List Char)) : List Char :=
  pieces.headD [] ++ (List.zipWith (· ++ ·) runs pieces.tail).flatten

/-- To put runs in the places of the stars is to put them between the pieces. -/
theorem fill_eq_interleave {runs : List (List Char)} (h : runs.length = cs.count '*') :
    fill cs runs = interleave (Text.splitOn '*' cs) runs := by
  induction cs generalizing runs with
  | nil =>
    rw [List.length_eq_zero_iff.1 h]
    rfl
  | cons c cs ih =>
    obtain ⟨piece, pieces, hsplit⟩ := List.exists_cons_of_ne_nil (Text.splitOn_ne_nil '*' cs)
    rw [hsplit] at ih
    rw [fill, Text.splitOn, hsplit]
    by_cases hc : c = '*'
    · rw [hc, List.count_cons_self] at h
      obtain ⟨run, runs, rfl⟩ := List.exists_cons_of_length_eq_add_one h
      rw [if_pos hc, if_pos hc, List.headD_cons, List.tail_cons, ih (Nat.succ.inj h)]
      simp [interleave]
    · rw [List.count_cons_of_ne (by simpa using hc)] at h
      rw [if_neg hc, if_neg hc, ih h]
      rfl

end Pattern.Glob

namespace NamePattern

theorem nameChars_has_iff {c : Char} :
    nameChars.has c = true ↔ Unicode.isWordChar c = true ∨ c = '$' := by
  simp [nameChars, CharClass.has]

/-- A name is the pieces of a text, cut at its stars, with runs of word characters and dollar signs
between them. -/
def Stretches (cs name : List Char) : Prop :=
  ∃ runs : List (List Char), runs.length + 1 = (Text.splitOn '*' cs).length ∧
    (∀ run ∈ runs, ∀ c ∈ run, Unicode.isWordChar c = true ∨ c = '$') ∧
    name = Glob.interleave (Text.splitOn '*' cs) runs

theorem aligns_ofStars_iff_stretches :
    Gapped.Aligns (Glob.takes nameChars) nameChars.has (Glob.ofStars cs) name ↔
      Stretches cs name := by
  unfold Stretches
  simp only [Glob.aligns_ofStars_iff, nameChars_has_iff, Text.length_splitOn,
    Nat.add_right_cancel_iff]
  constructor
  · rintro ⟨runs, hlength, hruns, rfl⟩
    exact ⟨runs, hlength, hruns, Glob.fill_eq_interleave hlength⟩
  · rintro ⟨runs, hlength, hruns, rfl⟩
    exact ⟨runs, hlength, hruns, Glob.fill_eq_interleave hlength⟩

/-! ## Reading a name pattern -/

theorem parse_eq_ok (h : parse cs = .ok pattern) (hany : cs ≠ ['*']) :
    body cs ≠ [] ∧ pattern = .like (Glob.ofStars (body cs)) := by
  unfold parse at h
  rw [if_neg hany] at h
  split at h
  · cases h
  · next hgood =>
    rw [not_or, List.isEmpty_iff] at hgood
    exact ⟨hgood.1, (Except.ok.inj h).symm⟩

theorem matchesName_any_iff : matchesName .any name = true ↔ name ≠ [] ∧ '\n' ∉ name := by
  unfold matchesName regex
  rw [Regex.accepts_iff, Regex.mem_plus_noneOf_iff]

theorem matchesName_like_iff {glob : Glob} :
    matchesName (.like glob) name = true ↔
      Gapped.Aligns (Glob.takes nameChars) nameChars.has glob name :=
  Regex.accepts_iff.trans Glob.mem_regex_iff

theorem matchesName_iff_stretches (h : parse cs = .ok pattern) (hany : cs ≠ ['*']) :
    pattern.matchesName name = true ↔ Stretches (body cs) name := by
  rw [(parse_eq_ok h hany).2, matchesName_like_iff, aligns_ofStars_iff_stretches]

/-- A text without a star at its front is its own body. -/
theorem body_eq_self (h : cs.head? ≠ some '*') : body cs = cs := by
  cases cs with
  | nil => rfl
  | cons c cs => exact if_neg fun hc => h (congrArg some hc)

theorem matchesName_iff_eq (h : parse cs = .ok pattern) (hstar : '*' ∉ cs) :
    pattern.matchesName name = true ↔ name = cs := by
  have hany : cs ≠ ['*'] := by
    rintro rfl
    exact hstar List.mem_cons_self
  have hhead : cs.head? ≠ some '*' := fun h => hstar (List.mem_of_head? h)
  rw [(parse_eq_ok h hany).2, body_eq_self hhead]
  exact matchesName_like_iff.trans (Glob.aligns_ofStars_of_not_mem hstar)

/-- A star in front of a pattern that does not begin with one is read as if it were not there. -/
theorem eq_of_parse_star {starred : NamePattern} (hstarred : parse ('*' :: cs) = .ok starred)
    (h : parse cs = .ok pattern) (hhead : cs.head? ≠ some '*') : starred = pattern := by
  have hany : cs ≠ ['*'] := by
    rintro rfl
    exact hhead rfl
  obtain ⟨hne, rfl⟩ := parse_eq_ok h hany
  rw [body_eq_self hhead] at hne ⊢
  have hany' : '*' :: cs ≠ ['*'] := fun heq => hne (List.cons.inj heq).2
  exact (parse_eq_ok hstarred hany').2

end NamePattern

/-! ## The name in a signature -/

theorem Signature.compile_eq_ok_iff {text : String} {signature : Signature} :
    Signature.compile text = .ok signature ↔ Signature.parse text = .ok signature :=
  mapError_eq_ok_iff

/-- **The names that a signature fits.** A star alone fits the nonempty names without a line break.
Any other name pattern fits the names that are its pieces with runs of word characters and dollar
signs for its stars, where a star at its front is left out. A pattern without stars fits itself
alone, and a star in front of a pattern that begins with something else changes nothing. -/
theorem Signature.matchesName_iff {text : String} {signature : Signature}
    (h : Signature.compile text = .ok signature) :
    ∃ texts, Signature.texts text = .ok texts ∧
      (texts.name = ['*'] →
        ∀ name, signature.matchesName name = true ↔ name ≠ "" ∧ '\n' ∉ name.toList) ∧
      (texts.name ≠ ['*'] →
        ∀ name, signature.matchesName name = true ↔
          NamePattern.Stretches (NamePattern.body texts.name) name.toList) ∧
      ('*' ∉ texts.name →
        ∀ name, signature.matchesName name = true ↔ name.toList = texts.name) ∧
      ∀ starredText starred starredTexts, Signature.compile starredText = .ok starred →
        Signature.texts starredText = .ok starredTexts →
        starredTexts.name = '*' :: texts.name → texts.name.head? ≠ some '*' →
          ∀ name, starred.matchesName name = signature.matchesName name := by
  obtain ⟨texts, htexts, _, hname, _⟩ :=
    Signature.parse_eq_ok (Signature.compile_eq_ok_iff.1 h)
  refine ⟨texts, htexts, ?_, ?_, ?_, ?_⟩
  · intro hany name
    rw [hany] at hname
    obtain hsome : NamePattern.any = signature.name := Except.ok.inj hname
    unfold matchesName
    rw [← hsome, NamePattern.matchesName_any_iff, ne_eq, String.toList_eq_nil_iff]
  · intro hany name
    exact NamePattern.matchesName_iff_stretches hname hany
  · intro hstar name
    exact NamePattern.matchesName_iff_eq hname hstar
  · intro starredText starred starredTexts hstarred hstarredTexts hfront hhead name
    obtain ⟨_, htexts', _, hname', _⟩ :=
      Signature.parse_eq_ok (Signature.compile_eq_ok_iff.1 hstarred)
    obtain rfl := Except.ok.inj (hstarredTexts.symm.trans htexts')
    rw [hfront] at hname'
    unfold matchesName
    rw [NamePattern.eq_of_parse_star hname' hname hhead]

/-- The star of `o*` stands for `1$`, and one more in front of it for nothing. -/
theorem Signature.matchesName_iff_starred :
    ∃ signature starred, Signature.compile "T o*(..)" = .ok signature ∧
      Signature.compile "T *o*(..)" = .ok starred ∧ starred.matchesName "o1$" = true ∧
      starred.matchesName "xo" = false := by
  obtain ⟨signature, hsignature⟩ : ∃ signature, Signature.compile "T o*(..)" = .ok signature :=
    ⟨_, rfl⟩
  obtain ⟨starred, hstarred⟩ : ∃ starred, Signature.compile "T *o*(..)" = .ok starred := ⟨_, rfl⟩
  obtain ⟨texts, htexts, _, hmatches, _, hfront⟩ := Signature.matchesName_iff hsignature
  obtain rfl : ⟨"T".toList, "o*".toList, "..".toList⟩ = texts := Except.ok.inj htexts
  replace hmatches := hmatches (by decide)
  replace hfront := hfront _ starred ⟨"T".toList, "*o*".toList, "..".toList⟩ hstarred rfl rfl
    (by decide)
  refine ⟨signature, starred, hsignature, hstarred, ?_, ?_⟩
  · rw [hfront, hmatches]
    have hdigit : Unicode.isWordChar '1' = true := by decide +kernel
    refine ⟨[['1', '$']], rfl, ?_, rfl⟩
    exact List.forall_mem_singleton.2
      (List.forall_mem_cons.2 ⟨.inl hdigit, List.forall_mem_singleton.2 (.inr rfl)⟩)
  · rw [hfront, Bool.eq_false_iff]
    intro hxo
    obtain ⟨runs, _, _, hname⟩ := (hmatches "xo").1 hxo
    exact absurd (List.cons.inj hname).1 (by decide)

end CallRefactor
