import CallRefactor.Text.Slice

/-!
# Boundaries and what stands between them

Two boundaries of a text cut it into three parts. So what stands between two boundaries can be put
together from what stands between the boundaries on the way, and the whole text is what stands
between its first and its last boundary.

Main statements: `exists_parts`, two boundaries in order cut the text into three parts, and
`between_append_between`, neighbouring parts of a text make up one part of it.
-/

namespace CallRefactor.Text

variable {cs : List Char} {a b c n : Nat}

/-! ## Boundaries -/

theorem byteLength_eq_zero_iff : byteLength cs = 0 ↔ cs = [] := by
  cases cs with
  | nil => simp
  | cons d ds =>
    have hd := d.utf8Size_pos
    simp only [byteLength_cons, reduceCtorEq, iff_false]
    omega

/-- An offset is a boundary when a part of the text from its start is that many bytes long. -/
theorem isBoundary_iff : IsBoundary cs n ↔ ∃ p r, cs = p ++ r ∧ byteLength p = n := by
  unfold IsBoundary
  rw [Option.isSome_iff_exists]
  constructor
  · rintro ⟨⟨p, r⟩, h⟩
    exact ⟨p, r, append_of_splitAt? h⟩
  · rintro ⟨p, r, h⟩
    exact ⟨(p, r), splitAt?_eq_some_iff.2 h⟩

theorem isBoundary_zero (cs : List Char) : IsBoundary cs 0 :=
  isBoundary_iff.2 ⟨[], cs, rfl, rfl⟩

theorem isBoundary_byteLength (cs : List Char) : IsBoundary cs (byteLength cs) :=
  isBoundary_iff.2 ⟨cs, [], by simp, rfl⟩

theorem IsBoundary.le_byteLength (h : IsBoundary cs n) : n ≤ byteLength cs := by
  obtain ⟨p, r, rfl, rfl⟩ := isBoundary_iff.1 h
  rw [byteLength_append]
  omega

/-- Of two beginnings of one text the shorter one is a beginning of the other. -/
theorem exists_append_of_byteLength_le {p q r s : List Char} (h : p ++ r = q ++ s)
    (hle : byteLength p ≤ byteLength q) : ∃ m, q = p ++ m ∧ r = m ++ s := by
  rcases List.append_eq_append_iff.1 h with ⟨m, hq, hr⟩ | ⟨m, hp, hs⟩
  · exact ⟨m, hq, hr⟩
  · -- the longer part on the left can only be longer by nothing
    have hm : m = [] := byteLength_eq_zero_iff.1 (by rw [hp, byteLength_append] at hle; omega)
    subst hm
    exact ⟨[], by simpa using hp.symm, by simpa using hs.symm⟩

/-- Two boundaries in order cut a text into three parts. -/
theorem exists_parts (ha : IsBoundary cs a) (hb : IsBoundary cs b) (hab : a ≤ b) :
    ∃ p m r, cs = p ++ (m ++ r) ∧ byteLength p = a ∧ byteLength p + byteLength m = b := by
  obtain ⟨p, s, rfl, rfl⟩ := isBoundary_iff.1 ha
  obtain ⟨q, r, hq, rfl⟩ := isBoundary_iff.1 hb
  obtain ⟨m, rfl, rfl⟩ := exists_append_of_byteLength_le hq hab
  exact ⟨p, m, r, rfl, rfl, (byteLength_append p m).symm⟩

/-! ## What stands between two boundaries -/

/-- The middle one of three parts stands between the boundaries around it. -/
theorem between_parts (p m r : List Char) :
    between (byteLength p) (byteLength p + byteLength m) (p ++ (m ++ r)) = m := by
  unfold between between?
  rw [splitAt?_append]
  simp only [bind, Option.bind, Nat.add_sub_cancel_left, splitAt?_append]
  rfl

theorem between_self (ha : IsBoundary cs a) : between a a cs = [] := by
  obtain ⟨p, r, rfl, rfl⟩ := isBoundary_iff.1 ha
  exact between_parts p [] r

theorem between_zero_byteLength (cs : List Char) : between 0 (byteLength cs) cs = cs := by
  have h := between_parts [] cs []
  simpa using h

/-- Neighbouring parts of a text make up one part of it. -/
theorem between_append_between (ha : IsBoundary cs a) (hb : IsBoundary cs b)
    (hc : IsBoundary cs c) (hab : a ≤ b) (hbc : b ≤ c) :
    between a b cs ++ between b c cs = between a c cs := by
  obtain ⟨p, m, s, rfl, rfl, rfl⟩ := exists_parts ha hb hab
  obtain ⟨q, r, hq, rfl⟩ := isBoundary_iff.1 hc
  rw [← byteLength_append] at hbc
  rw [← List.append_assoc] at hq
  obtain ⟨m', rfl, rfl⟩ := exists_append_of_byteLength_le hq hbc
  have h₁ := between_parts p m (m' ++ r)
  have h₂ := between_parts (p ++ m) m' r
  have h₃ := between_parts p (m ++ m') r
  simp only [byteLength_append, List.append_assoc, ← Nat.add_assoc] at h₁ h₂ h₃ ⊢
  rw [h₁, h₂, h₃]

theorem byteLength_between (ha : IsBoundary cs a) (hb : IsBoundary cs b) (hab : a ≤ b) :
    byteLength (between a b cs) = b - a := by
  obtain ⟨p, m, r, rfl, rfl, rfl⟩ := exists_parts ha hb hab
  rw [between_parts, Nat.add_sub_cancel_left]

/-- What stands behind an offset has no part in whether an offset before it is a boundary. -/
theorem isBoundary_between_append (ha : IsBoundary cs a) (hb : IsBoundary cs b) (hab : a ≤ b)
    (r : List Char) : IsBoundary (between 0 b cs ++ r) a := by
  have h0 := isBoundary_zero cs
  rw [← between_append_between h0 ha hb (Nat.zero_le a) hab, List.append_assoc]
  exact isBoundary_iff.2 ⟨_, _, rfl, byteLength_between h0 ha (Nat.zero_le a)⟩

end CallRefactor.Text
