import CallRefactor.Proofs.Span.Sort

/-!
# Spans one after the other

Two spans that do not overlap stand one after the other, and the order by start and stop says which
comes first. Spans that touch stand one after the other as well, but an empty span does not come
before itself. So the order is strict, and a list of items has at most one arrangement in which
each of them precedes the next.

Main statements: `not_overlaps_iff`, spans do not overlap exactly when one precedes the other, and
`sortOn_eq_of_perm`, sorting finds the arrangement in which all items precede each other.
-/

namespace CallRefactor.Span

variable {a b c : Span}

/-- A span cannot be edited independently of itself. -/
theorem overlaps_self (a : Span) : a.Overlaps a := by
  have ha := a.start_le_stop
  rcases Nat.lt_or_eq_of_le ha with hlt | heq
  · exact .inl ⟨hlt, hlt⟩
  · exact .inr ⟨heq, rfl⟩

/-- A span precedes another that starts where it ends, or later. An empty span does not precede
itself. -/
def Precedes (a b : Span) : Prop := a.stop ≤ b.start ∧ a ≠ b

instance (a b : Span) : Decidable (a.Precedes b) := inferInstanceAs (Decidable (_ ∧ _))

theorem Precedes.stop_le (h : a.Precedes b) : a.stop ≤ b.start := h.1

theorem Precedes.le (h : a.Precedes b) : a ≤ b := by
  have ha := a.start_le_stop
  have hb := b.start_le_stop
  have h₁ := h.stop_le
  rw [le_iff]
  omega

/-- Nothing that precedes a span comes after it in the order. -/
theorem Precedes.not_le (h : a.Precedes b) : ¬ b ≤ a :=
  fun hba => h.2 (le_antisymm h.le hba)

theorem Precedes.trans (h₁ : a.Precedes b) (h₂ : b.Precedes c) : a.Precedes c := by
  have hb := b.start_le_stop
  have hab := h₁.stop_le
  have hbc := h₂.stop_le
  refine ⟨by omega, ?_⟩
  rintro rfl
  exact h₁.not_le h₂.le

theorem Precedes.not_overlaps (h : a.Precedes b) : ¬ a.Overlaps b := by
  rintro (⟨_, h₂⟩ | ⟨_, hab⟩)
  · exact absurd h.stop_le (by omega)
  · exact h.2 hab

/-- Spans that are in sequence and do not overlap are not the same empty span. -/
theorem precedes_of_stop_le (h : a.stop ≤ b.start) (hn : ¬ a.Overlaps b) : a.Precedes b := by
  refine ⟨h, ?_⟩
  rintro rfl
  exact hn (overlaps_self a)

/-- Spans that are in sequence precede each other unless both are empty. -/
theorem precedes_of_not_isEmpty (h : a.stop ≤ b.start) (hb : ¬ b.IsEmpty) : a.Precedes b := by
  refine ⟨h, ?_⟩
  rintro rfl
  have ha := a.start_le_stop
  exact hb (show a.start = a.stop by omega)

/-- In the order, a span precedes all later ones that it does not overlap. -/
theorem precedes_of_le (h : a ≤ b) (hn : ¬ a.Overlaps b) : a.Precedes b := by
  refine precedes_of_stop_le ?_ hn
  rcases Nat.lt_or_ge b.start a.stop with hlt | hge
  · exfalso
    have ha := a.start_le_stop
    have hb := b.start_le_stop
    rw [le_iff] at h
    rcases Nat.lt_or_ge a.start b.stop with hlt' | hge'
    · exact hn (.inl ⟨hlt', hlt⟩)
    · -- the second span is empty, so it can only be longer where both start
      omega
  · exact hge

/-- Spans do not overlap exactly when one of them precedes the other. -/
theorem not_overlaps_iff : ¬ a.Overlaps b ↔ a.Precedes b ∨ b.Precedes a := by
  constructor
  · intro hn
    rcases le_total a b with h | h
    · exact .inl (precedes_of_le h hn)
    · exact .inr (precedes_of_le h fun ho => hn (overlaps_comm.1 ho))
  · rintro (h | h)
    · exact h.not_overlaps
    · exact fun ho => h.not_overlaps (overlaps_comm.1 ho)

/-! ## Sorting spans that do not overlap -/

variable {α : Type} {span : α → Span} {xs ys : List α}

/-- Of two items in sequence one precedes the other. -/
theorem eq_or_precedes_of_mem (h : ys.Pairwise fun x y => (span x).Precedes (span y)) {x y : α}
    (hx : x ∈ ys) (hy : y ∈ ys) :
    x = y ∨ (span x).Precedes (span y) ∨ (span y).Precedes (span x) := by
  induction ys with
  | nil => simp at hx
  | cons z zs ih =>
    obtain ⟨hz, hzs⟩ := List.pairwise_cons.1 h
    rcases List.mem_cons.1 hx with rfl | hx' <;> rcases List.mem_cons.1 hy with rfl | hy'
    · exact .inl rfl
    · exact .inr (.inl (hz y hy'))
    · exact .inr (.inr (hz x hx'))
    · exact ih hzs hx' hy'

/-- Sorting finds the arrangement in which all items precede each other, if there is one. -/
theorem sortOn_eq_of_perm (hp : xs.Perm ys)
    (h : ys.Pairwise fun x y => (span x).Precedes (span y)) : sortOn span xs = ys := by
  have hsorted : ys.Pairwise fun x y => span x ≤ span y := h.imp Precedes.le
  refine List.Perm.eq_of_pairwise ?_ (pairwise_sortOn span xs) hsorted
    ((sortOn_perm span xs).trans hp)
  intro x y hx hy hxy hyx
  have hx' : x ∈ ys := hp.mem_iff.1 ((sortOn_perm span xs).mem_iff.1 hx)
  rcases eq_or_precedes_of_mem h hx' hy with heq | hprec | hprec
  · exact heq
  · exact absurd hyx hprec.not_le
  · exact absurd hxy hprec.not_le

/-- Sorting items of which no two overlap puts each before all later ones. -/
theorem pairwise_precedes_sortOn (h : xs.Pairwise fun x y => ¬ (span x).Overlaps (span y)) :
    (sortOn span xs).Pairwise fun x y => (span x).Precedes (span y) := by
  have hapart : (sortOn span xs).Pairwise fun x y => ¬ (span x).Overlaps (span y) :=
    h.perm (sortOn_perm span xs).symm fun hn ho => hn (overlaps_comm.1 ho)
  exact (pairwise_sortOn span xs).imp₂ (fun _ _ => precedes_of_le) hapart

end CallRefactor.Span
