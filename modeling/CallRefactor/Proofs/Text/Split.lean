import CallRefactor.Text.Split

/-!
# Splitting is the inverse of joining

A text is its pieces with the mark between them, and pieces without the mark come back from the text
that they are joined to.

A text is also split at a mark that is written twice, and what a single mark joins stays joined. And
it is cut at the last character of a kind.

Main statements: `intercalate_splitOn` and `splitOn_intercalate`, `splitOnPair_append_pair` and
`splitOnPair_append_single`, and `splitLast?_eq_some_iff`.
-/

namespace CallRefactor.Text

variable {mark c : Char} {cs p : List Char}

/-! ## At a single mark -/

theorem splitOn_eq (mark : Char) (cs : List Char) : splitOn mark cs = cs.splitOn mark := by
  induction cs with
  | nil => exact (List.splitOn_nil mark).symm
  | cons c cs ih =>
    rw [splitOn, List.splitOn_cons_eq_if_modifyHead, ← ih]
    by_cases hc : c = mark
    · rw [if_pos hc, if_pos (beq_iff_eq.2 hc)]
    · rw [if_neg hc, if_neg (by simpa using hc)]
      cases hpieces : splitOn mark cs with
      | nil => exact absurd hpieces (splitOn_ne_nil mark cs)
      | cons piece pieces => rfl

/-- Joined by the mark, the pieces of a text make up the text. -/
theorem intercalate_splitOn (mark : Char) (cs : List Char) :
    [mark].intercalate (splitOn mark cs) = cs := by
  rw [splitOn_eq, List.intercalate_splitOn]

/-- Pieces without the mark come back from the text that they are joined to. -/
theorem splitOn_intercalate {pieces : List (List Char)} (hne : pieces ≠ [])
    (h : ∀ piece ∈ pieces, mark ∉ piece) : splitOn mark ([mark].intercalate pieces) = pieces := by
  rw [splitOn_eq, List.splitOn_intercalate mark h hne]

theorem splitOn_of_not_mem (h : mark ∉ cs) : splitOn mark cs = [cs] := by
  rw [splitOn_eq, List.splitOn_eq_singleton h]

theorem splitOn_append_cons (h : mark ∉ p) (cs : List Char) :
    splitOn mark (p ++ mark :: cs) = p :: splitOn mark cs := by
  rw [splitOn_eq, splitOn_eq, List.splitOn_append_cons_self_of_not_mem h]

/-- No piece has the mark in it. -/
theorem not_mem_of_mem_splitOn (h : p ∈ splitOn mark cs) : mark ∉ p := by
  induction cs generalizing p with
  | nil =>
    rw [List.mem_singleton.1 h]
    exact List.not_mem_nil
  | cons c cs ih =>
    obtain ⟨piece, pieces, hsplit⟩ := List.exists_cons_of_ne_nil (splitOn_ne_nil mark cs)
    rw [hsplit] at ih
    rw [splitOn, hsplit] at h
    by_cases hc : c = mark
    · rw [if_pos hc] at h
      rcases List.mem_cons.1 h with rfl | h
      · exact List.not_mem_nil
      · exact ih h
    · rw [if_neg hc] at h
      rcases List.mem_cons.1 h with rfl | h
      · exact List.not_mem_cons_of_ne_of_not_mem (Ne.symm hc) (ih List.mem_cons_self)
      · exact ih (List.mem_cons_of_mem piece h)

/-- A text is its first piece and the others with the mark in front of each of them. -/
theorem splitOn_eq_cons_iff {pieces : List (List Char)} :
    splitOn mark cs = p :: pieces ↔
      cs = p ++ pieces.flatMap (mark :: ·) ∧ ∀ piece ∈ p :: pieces, mark ∉ piece := by
  constructor
  · intro h
    refine ⟨?_, fun piece hpiece => not_mem_of_mem_splitOn (h ▸ hpiece)⟩
    rw [← intercalate_splitOn mark cs, h]
    clear h
    induction pieces generalizing p with
    | nil => simp
    | cons q pieces ih => rw [List.intercalate_cons_cons, ih]; simp
  · rintro ⟨rfl, h⟩
    induction pieces generalizing p with
    | nil =>
      rw [List.flatMap_nil, List.append_nil]
      exact splitOn_of_not_mem (h p List.mem_cons_self)
    | cons q pieces ih =>
      obtain ⟨hp, hpieces⟩ := List.forall_mem_cons.1 h
      rw [List.flatMap_cons, List.cons_append, splitOn_append_cons hp, ih hpieces]

/-- Pieces with the mark behind each of them are the first ones of a text. -/
theorem splitOn_flatMap_append {pieces : List (List Char)} (h : ∀ piece ∈ pieces, mark ∉ piece)
    (cs : List Char) :
    splitOn mark (pieces.flatMap (· ++ [mark]) ++ cs) = pieces ++ splitOn mark cs := by
  induction pieces with
  | nil => rfl
  | cons p pieces ih =>
    obtain ⟨hp, hpieces⟩ := List.forall_mem_cons.1 h
    rw [List.cons_append, ← ih hpieces, ← splitOn_append_cons hp]
    simp

/-- A text of two pieces at least is cut at its first mark. -/
theorem exists_of_splitOn_eq_cons_cons {q : List Char} {pieces : List (List Char)}
    (h : splitOn mark cs = p :: q :: pieces) :
    ∃ rest, cs = p ++ mark :: rest ∧ splitOn mark rest = q :: pieces := by
  by_cases hmark : mark ∈ cs
  · obtain ⟨before, rest, rfl, hbefore⟩ := List.eq_append_cons_of_mem hmark
    rw [splitOn_append_cons hbefore] at h
    obtain ⟨rfl, hrest⟩ := List.cons.inj h
    exact ⟨rest, rfl, hrest⟩
  · rw [splitOn_of_not_mem hmark] at h
    cases h

/-- The first ones of the pieces of a text have the mark behind each of them, if there are more. -/
theorem exists_of_splitOn_eq_append {pieces more : List (List Char)} (hmore : more ≠ [])
    (h : splitOn mark cs = pieces ++ more) :
    ∃ rest, cs = pieces.flatMap (· ++ [mark]) ++ rest ∧ splitOn mark rest = more := by
  induction pieces generalizing cs with
  | nil => exact ⟨cs, rfl, h⟩
  | cons p pieces ih =>
    obtain ⟨q, others, hothers⟩ :=
      List.exists_cons_of_ne_nil (List.append_ne_nil_of_right_ne_nil pieces hmore)
    rw [List.cons_append, hothers] at h
    obtain ⟨tail, rfl, htail⟩ := exists_of_splitOn_eq_cons_cons h
    obtain ⟨rest, rfl, hrest⟩ := ih (htail.trans hothers.symm)
    exact ⟨rest, by simp, hrest⟩

/-- There is one piece more than there are marks. -/
theorem length_splitOn (mark : Char) (cs : List Char) :
    (splitOn mark cs).length = cs.count mark + 1 := by
  induction cs with
  | nil => rfl
  | cons c cs ih =>
    rw [splitOn]
    by_cases hc : c = mark
    · rw [if_pos hc, List.length_cons, ih, hc, List.count_cons_self]
    · rw [if_neg hc, List.count_cons_of_ne (by simpa using hc)]
      obtain ⟨piece, pieces, hsplit⟩ := List.exists_cons_of_ne_nil (splitOn_ne_nil mark cs)
      rw [hsplit] at ih ⊢
      exact ih

/-! ## At a mark written twice -/

theorem splitOnPair_ne_nil (mark : Char) (cs : List Char) : splitOnPair mark cs ≠ [] := by
  match cs with
  | [] => exact List.cons_ne_nil _ _
  | [c] => exact List.cons_ne_nil _ _
  | c :: d :: cs =>
    rw [splitOnPair]
    split
    · exact List.cons_ne_nil _ _
    · split <;> exact List.cons_ne_nil _ _

/-- A character that is not the first one of two marks belongs to the first piece. -/
theorem splitOnPair_cons (h : c = mark → cs.head? ≠ some mark) :
    splitOnPair mark (c :: cs) = (splitOnPair mark cs).modifyHead (c :: ·) := by
  cases cs with
  | nil => rfl
  | cons d cs =>
    have hpair : ¬ (c = mark ∧ d = mark) := by
      rintro ⟨hc, rfl⟩
      exact h hc rfl
    rw [splitOnPair, if_neg hpair]
    cases hpieces : splitOnPair mark (d :: cs) with
    | nil => exact absurd hpieces (splitOnPair_ne_nil mark (d :: cs))
    | cons piece pieces => rfl

theorem splitOnPair_of_not_mem (h : mark ∉ p) : splitOnPair mark p = [p] := by
  induction p with
  | nil => rfl
  | cons c p ih =>
    rw [splitOnPair_cons fun hc => absurd hc (List.ne_of_not_mem_cons h).symm,
      ih (List.not_mem_of_not_mem_cons h)]
    rfl

theorem splitOnPair_append_pair (h : mark ∉ p) (cs : List Char) :
    splitOnPair mark (p ++ mark :: mark :: cs) = p :: splitOnPair mark cs := by
  induction p with
  | nil => exact if_pos ⟨rfl, rfl⟩
  | cons c p ih =>
    rw [List.cons_append, splitOnPair_cons fun hc => absurd hc (List.ne_of_not_mem_cons h).symm,
      ih (List.not_mem_of_not_mem_cons h)]
    rfl

/-- What stands in front of a single mark belongs to the first piece. -/
theorem splitOnPair_append_single (h : mark ∉ p) (hcs : cs.head? ≠ some mark) :
    splitOnPair mark (p ++ mark :: cs) = (splitOnPair mark cs).modifyHead (p ++ mark :: ·) := by
  induction p with
  | nil => exact splitOnPair_cons fun _ => hcs
  | cons c p ih =>
    rw [List.cons_append, splitOnPair_cons fun hc => absurd hc (List.ne_of_not_mem_cons h).symm,
      ih (List.not_mem_of_not_mem_cons h), List.modifyHead_modifyHead]
    rfl

/-! ## At the last character of a kind -/

theorem splitLast?_eq_none_iff {q : Char → Bool} :
    splitLast? q cs = none ↔ ∀ c ∈ cs, q c = false := by
  induction cs with
  | nil => simp [splitLast?]
  | cons c cs ih =>
    rw [splitLast?, List.forall_mem_cons, ← ih]
    cases splitLast? q cs <;> simp

/-- A text is cut at a character of the kind behind which there is none. -/
theorem splitLast?_eq_some_iff {q : Char → Bool} {before after : List Char} :
    splitLast? q cs = some (before, after) ↔
      ∃ c, cs = before ++ c :: after ∧ q c = true ∧ ∀ d ∈ after, q d = false := by
  induction cs generalizing before with
  | nil => simp [splitLast?]
  | cons d cs ih =>
    rw [splitLast?]
    constructor
    · intro h
      cases hrest : splitLast? q cs with
      | some cut =>
        obtain ⟨front, back⟩ := cut
        rw [hrest] at h
        obtain ⟨rfl, rfl⟩ := Prod.mk.inj (Option.some.inj h)
        obtain ⟨c, rfl, hc, hafter⟩ := ih.1 hrest
        exact ⟨c, rfl, hc, hafter⟩
      | none =>
        rw [hrest] at h
        by_cases hd : q d = true
        · obtain ⟨rfl, rfl⟩ := Prod.mk.inj (Option.some.inj ((if_pos hd).symm.trans h))
          exact ⟨d, rfl, hd, splitLast?_eq_none_iff.1 hrest⟩
        · cases (if_neg hd).symm.trans h
    · rintro ⟨c, hcs, hc, hafter⟩
      cases before with
      | nil =>
        obtain ⟨rfl, rfl⟩ := List.cons.inj hcs
        rw [splitLast?_eq_none_iff.2 hafter]
        exact if_pos hc
      | cons e before =>
        obtain ⟨rfl, rfl⟩ := List.cons.inj hcs
        rw [ih.2 ⟨c, rfl, hc, hafter⟩]

end CallRefactor.Text
