import CallRefactor.Proofs.Edit.Applicable
import CallRefactor.Proofs.Text.Cut
import CallRefactor.Syntax.Call

/-!
# Well-formed calls

The host promises that the spans of a call come from a parsed text: the receiver, the name and the
arguments stand inside the call, one after the other, on boundaries of the text, and none of them is
empty. The literals of an argument stand inside it in the same way, in any order and at any depth.

Main statement: `pairwise_anchors`, the places of a well-formed call that can be edited precede each
other.
-/

namespace CallRefactor

/-! ## Promises of the host -/

/-- The literals of an expression are tokens of the text inside the expression. -/
structure Expr.WellFormed (text : String) (e : Expr) : Prop where
  /-- Every literal stands on boundaries of the text. -/
  fits : ∀ l ∈ e.literals, l.1.Fits text.toList
  /-- No literal is empty. -/
  nonempty : ∀ l ∈ e.literals, ¬ l.1.IsEmpty
  /-- Every literal stands inside the expression. -/
  inside : ∀ l ∈ e.literals, e.span.Contains l.1
  /-- No two literals share a part of the text. -/
  apart : e.literals.Pairwise fun a b => ¬ a.1.Overlaps b.1

instance (text : String) (e : Expr) : Decidable (e.WellFormed text) :=
  decidable_of_iff
    ((∀ l ∈ e.literals, l.1.Fits text.toList) ∧ (∀ l ∈ e.literals, ¬ l.1.IsEmpty) ∧
      (∀ l ∈ e.literals, e.span.Contains l.1) ∧
      e.literals.Pairwise fun a b => ¬ a.1.Overlaps b.1)
    ⟨fun ⟨h₁, h₂, h₃, h₄⟩ => ⟨h₁, h₂, h₃, h₄⟩,
      fun h => ⟨h.fits, h.nonempty, h.inside, h.apart⟩⟩

namespace Call

variable {text : String} {call : Call}

/-- The spans of the receiver, if there is one, of the name and of the arguments. -/
def slots (call : Call) : List Span :=
  match call.callee with
  | .bare name => name.span :: call.arguments.map Expr.span
  | .qualified receiver name => receiver.span :: name.span :: call.arguments.map Expr.span

/-- The parts of a call are what a parsed text has: tokens and expressions one after the other. -/
structure WellFormed (text : String) (call : Call) : Prop where
  /-- No part of the call is empty. -/
  nonempty : ∀ s ∈ call.slots, ¬ s.IsEmpty
  /-- Every part stands inside the call. -/
  inside : ∀ s ∈ call.slots, call.span.Contains s
  /-- Every part stands on boundaries of the text. -/
  fits : ∀ s ∈ call.slots, s.Fits text.toList
  /-- Every part ends before the next one starts, or where it starts. -/
  ordered : call.slots.Pairwise fun a b => a.stop ≤ b.start
  /-- The literals of every argument are tokens inside it. -/
  arguments : ∀ argument ∈ call.arguments, argument.WellFormed text

instance (text : String) (call : Call) : Decidable (call.WellFormed text) :=
  decidable_of_iff
    ((∀ s ∈ call.slots, ¬ s.IsEmpty) ∧ (∀ s ∈ call.slots, call.span.Contains s) ∧
      (∀ s ∈ call.slots, s.Fits text.toList) ∧
      (call.slots.Pairwise fun a b => a.stop ≤ b.start) ∧
      ∀ argument ∈ call.arguments, argument.WellFormed text)
    ⟨fun ⟨h₁, h₂, h₃, h₄, h₅⟩ => ⟨h₁, h₂, h₃, h₄, h₅⟩,
      fun h => ⟨h.nonempty, h.inside, h.fits, h.ordered, h.arguments⟩⟩

/-! ## Places that can be edited -/

/-- Where a receiver is written: in the place of the old one, or in front of a name alone. -/
def front (call : Call) : Span :=
  match call.callee with
  | .bare name => .point name.span.start
  | .qualified receiver _ => receiver.span

/-- The spans that edits of a call can have, in order. -/
def anchors (call : Call) : List Span :=
  call.front :: call.callee.name.span :: call.arguments.map Expr.span

@[simp] theorem length_anchors (call : Call) :
    call.anchors.length = call.arguments.length + 2 := by
  simp [anchors]

theorem name_mem_slots (call : Call) : call.callee.name.span ∈ call.slots := by
  unfold slots
  cases call.callee <;> simp [Callee.name]

theorem span_mem_slots {argument : Expr} (h : argument ∈ call.arguments) :
    argument.span ∈ call.slots := by
  have hspan := List.mem_map_of_mem (f := Expr.span) h
  unfold slots
  cases call.callee with
  | bare name => exact List.mem_cons_of_mem _ hspan
  | qualified receiver name => exact List.mem_cons_of_mem _ (List.mem_cons_of_mem _ hspan)

theorem WellFormed.pairwise_slots (h : call.WellFormed text) :
    call.slots.Pairwise Span.Precedes :=
  h.ordered.imp_of_mem fun _ hb hab => Span.precedes_of_not_isEmpty hab (h.nonempty _ hb)

/-- In a well-formed call the places that can be edited precede each other. -/
theorem WellFormed.pairwise_anchors (h : call.WellFormed text) :
    call.anchors.Pairwise Span.Precedes := by
  have hslots := h.pairwise_slots
  have hnonempty := h.nonempty
  unfold anchors front
  unfold slots at hslots hnonempty
  cases hcallee : call.callee with
  | qualified receiver name =>
    rw [hcallee] at hslots
    exact hslots
  | bare name =>
    rw [hcallee] at hslots hnonempty
    refine List.pairwise_cons.2 ⟨fun s hs => ?_, hslots⟩
    refine Span.precedes_of_not_isEmpty ?_ (hnonempty s hs)
    -- the name comes first among the slots, so its start is not behind the start of any slot
    rcases List.mem_cons.1 hs with rfl | hs
    · exact Nat.le_refl _
    · have hle := ((List.pairwise_cons.1 hslots).1 s hs).stop_le
      have hname := name.span.start_le_stop
      show name.span.start ≤ s.start
      omega

/-- A place that can be edited is a slot or starts where the name starts. -/
theorem mem_anchors {s : Span} (h : s ∈ call.anchors) :
    s ∈ call.slots ∨ s = .point call.callee.name.span.start := by
  unfold anchors front at h
  unfold slots
  cases hcallee : call.callee with
  | qualified receiver name =>
    rw [hcallee] at h
    exact .inl h
  | bare name =>
    rw [hcallee] at h
    rcases List.mem_cons.1 h with rfl | h
    · exact .inr rfl
    · exact .inl h

theorem WellFormed.anchors_fits (h : call.WellFormed text) :
    ∀ s ∈ call.anchors, s.Fits text.toList := by
  intro s hs
  rcases mem_anchors hs with hs | rfl
  · exact h.fits s hs
  · have hname := h.fits _ call.name_mem_slots
    exact ⟨hname.1, hname.1⟩

theorem WellFormed.anchors_inside (h : call.WellFormed text) :
    ∀ s ∈ call.anchors, call.span.Contains s := by
  intro s hs
  rcases mem_anchors hs with hs | rfl
  · exact h.inside s hs
  · have hname := h.inside _ call.name_mem_slots
    have hle := call.callee.name.span.start_le_stop
    exact ⟨hname.1, Nat.le_trans hle hname.2⟩

end Call

end CallRefactor
