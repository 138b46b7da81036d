/-!
# Sets of characters as ranges of code points

A character property is a list of closed ranges of code points, ascending and apart, so a look-up
stops at the first range that begins beyond the character.

Main statement: `inRanges_iff`, the look-up finds a code point exactly when some range holds it.
-/

namespace CallRefactor.Unicode

/-- Whether a code point lies in one of the ranges, which are in ascending order. -/
def inRanges : List (Nat × Nat) → Nat → Bool
  | [], _ => false
  | (lo, hi) :: rest, n => lo ≤ n && (n ≤ hi || inRanges rest n)

/-- Whether ranges are nonempty, ascending and apart. -/
def isAscending : List (Nat × Nat) → Bool
  | [] => true
  | [r] => r.1 ≤ r.2
  | r :: s :: rest => r.1 ≤ r.2 && r.2 < s.1 && isAscending (s :: rest)

theorem isAscending_of_cons {r : Nat × Nat} {rest : List (Nat × Nat)}
    (h : isAscending (r :: rest) = true) : isAscending rest = true := by
  cases rest with
  | nil => rfl
  | cons s rest =>
    simp only [isAscending, Bool.and_eq_true] at h
    exact h.2

/-- No later range begins before the first one does. -/
theorem le_of_isAscending {r : Nat × Nat} {rest : List (Nat × Nat)}
    (h : isAscending (r :: rest) = true) : ∀ s ∈ rest, r.1 ≤ s.1 := by
  induction rest generalizing r with
  | nil => nofun
  | cons t rest ih =>
    have htail := isAscending_of_cons h
    simp only [isAscending, Bool.and_eq_true, decide_eq_true_eq] at h
    intro s hs
    rcases List.mem_cons.1 hs with rfl | hs
    · omega
    · have := ih htail s hs
      omega

/-- A code point is found exactly when one of the ranges holds it. -/
theorem inRanges_iff {ranges : List (Nat × Nat)} {n : Nat} (h : isAscending ranges = true) :
    inRanges ranges n = true ↔ ∃ r ∈ ranges, r.1 ≤ n ∧ n ≤ r.2 := by
  induction ranges with
  | nil => exact ⟨nofun, nofun⟩
  | cons r rest ih =>
    simp only [inRanges, Bool.and_eq_true, Bool.or_eq_true, decide_eq_true_eq,
      ih (isAscending_of_cons h)]
    constructor
    · rintro ⟨hlo, hhi | ⟨s, hs, hn⟩⟩
      · exact ⟨r, List.mem_cons_self, hlo, hhi⟩
      · exact ⟨s, List.mem_cons_of_mem _ hs, hn⟩
    · rintro ⟨s, hs, hlo, hhi⟩
      rcases List.mem_cons.1 hs with rfl | hs
      · exact ⟨hlo, .inl hhi⟩
      · have := le_of_isAscending h s hs
        exact ⟨by omega, .inr ⟨s, hs, hlo, hhi⟩⟩

end CallRefactor.Unicode
