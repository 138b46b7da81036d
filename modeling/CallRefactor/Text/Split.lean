/-!
# Cutting a text at a mark

Splitting at a character, at a pair of characters or at the first occurrence of a text, and
trimming at both ends. All functions recurse on the text and so evaluate on closed texts.

Main statements: `splitOn_ne_nil`, a split has at least one piece, and
`append_append_of_breakAt?`, what is cut at an occurrence is the text itself.
-/

namespace CallRefactor.Text

/-! ## Splitting at a character -/

/-- The pieces of a text between the occurrences of `mark`, in order. There is always one more
piece than there are marks. -/
def splitOn (mark : Char) : List Char → List (List Char)
  | [] => [[]]
  | c :: cs =>
    if c = mark then [] :: splitOn mark cs
    else match splitOn mark cs with
      | [] => [[c]]
      | piece :: pieces => (c :: piece) :: pieces

theorem splitOn_ne_nil (mark : Char) (cs : List Char) : splitOn mark cs ≠ [] := by
  cases cs with
  | nil => simp [splitOn]
  | cons c cs =>
    simp only [splitOn]
    split
    · simp
    · split <;> simp

/-- The pieces of a text between the occurrences of `mark` written twice, found from the left and
without overlap. -/
def splitOnPair (mark : Char) : List Char → List (List Char)
  | [] => [[]]
  | [c] => [[c]]
  | c :: d :: cs =>
    if c = mark ∧ d = mark then [] :: splitOnPair mark cs
    else match splitOnPair mark (d :: cs) with
      | [] => [[c]]
      | piece :: pieces => (c :: piece) :: pieces

/-- The text before and after the last character that satisfies `p`. -/
def splitLast? (p : Char → Bool) : List Char → Option (List Char × List Char)
  | [] => none
  | c :: cs =>
    match splitLast? p cs with
    | some (before, after) => some (c :: before, after)
    | none => if p c then some ([], cs) else none

/-! ## Cutting at the first occurrence -/

/-- The text before and after the first occurrence of `needle`. -/
def breakAt? (needle : List Char) : List Char → Option (List Char × List Char)
  | [] => if needle.isEmpty then some ([], []) else none
  | c :: cs =>
    match needle.isPrefixOf? (c :: cs) with
    | some after => some ([], after)
    | none => (breakAt? needle cs).map fun (before, after) => (c :: before, after)

theorem append_eq_of_isPrefixOf? {needle hay after : List Char}
    (h : needle.isPrefixOf? hay = some after) : needle ++ after = hay := by
  induction needle generalizing hay with
  | nil =>
    change some hay = some after at h
    exact (Option.some.inj h).symm
  | cons n needle ih =>
    cases hay with
    | nil => exact absurd h (by nofun)
    | cons c cs =>
      change (if n == c then needle.isPrefixOf? cs else none) = some after at h
      by_cases hc : n = c
      · rw [if_pos (beq_iff_eq.2 hc)] at h
        rw [hc, List.cons_append, ih h]
      · rw [if_neg (by simpa using hc)] at h
        nomatch h

/-- A cut at an occurrence loses nothing. -/
theorem append_append_of_breakAt? {needle hay before after : List Char}
    (h : breakAt? needle hay = some (before, after)) : before ++ (needle ++ after) = hay := by
  induction hay generalizing before with
  | nil =>
    simp only [breakAt?] at h
    split at h
    · rename_i hn
      simp only [Option.some.injEq, Prod.mk.injEq] at h
      have : needle = [] := by simpa using hn
      simp [this, ← h.1, ← h.2]
    · simp at h
  | cons c cs ih =>
    simp only [breakAt?] at h
    split at h
    · rename_i after' hp
      simp only [Option.some.injEq, Prod.mk.injEq] at h
      obtain ⟨rfl, rfl⟩ := h
      simpa using append_eq_of_isPrefixOf? hp
    · obtain ⟨⟨before', after'⟩, hb, he⟩ := Option.map_eq_some_iff.1 h
      obtain ⟨rfl, rfl⟩ := Prod.mk.inj he
      simp [ih hb]

/-! ## Trimming -/

/-- A text without the characters at its end that satisfy `p`. -/
def dropEndWhile (p : Char → Bool) (cs : List Char) : List Char :=
  (cs.reverse.dropWhile p).reverse

/-- A text without the characters at either end that satisfy `p`. -/
def trimWhile (p : Char → Bool) (cs : List Char) : List Char :=
  dropEndWhile p (cs.dropWhile p)

/-- A text without `ending` at its end, if it ends so. -/
def dropEnding? (ending cs : List Char) : Option (List Char) :=
  (ending.reverse.isPrefixOf? cs.reverse).map List.reverse

example : splitOn ',' ['a', ',', ','] = [['a'], [], []] := by decide

example : splitOnPair '.' ['.', '.', '.', 'a'] = [[], ['.', 'a']] := by decide

example : breakAt? ['b'] ['a', 'b', 'b'] = some (['a'], ['b']) := by decide

end CallRefactor.Text
