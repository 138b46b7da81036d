import CallRefactor.Proofs.Fix.Call

/-!
# Arguments changed one by one

A rule without a new order for the arguments changes each of them by the rule for it, and moves some
of them behind the others. Nothing is lost and nothing is doubled: the arguments that stay keep
their order, and so do those that move. Every slot then holds the argument that comes to stand
there, with its literals changed, and a slot that holds what it held before has no edit.

Main statement: `fix?_of_arguments`.
-/

namespace CallRefactor

variable {rule : Rule} {text : String} {call : Call} {argument : Expr} {index : Nat}

/-! ## Promises of the host -/

/-- The parts of a call stand in the text one after the other. Where the call itself begins and ends
is not said. -/
structure Call.Placed (text : String) (call : Call) : Prop where
  /-- No part of the call is empty. -/
  nonempty : ∀ s ∈ call.slots, ¬ s.IsEmpty
  /-- Every part stands on boundaries of the text. -/
  fits : ∀ s ∈ call.slots, s.Fits text.toList
  /-- Every part ends before the next one starts, or where it starts. -/
  ordered : call.slots.Pairwise fun a b => a.stop ≤ b.start
  /-- The literals of every argument are tokens inside it. -/
  arguments : ∀ argument ∈ call.arguments, argument.WellFormed text

instance (text : String) (call : Call) : Decidable (call.Placed text) :=
  decidable_of_iff
    ((∀ s ∈ call.slots, ¬ s.IsEmpty) ∧ (∀ s ∈ call.slots, s.Fits text.toList) ∧
      (call.slots.Pairwise fun a b => a.stop ≤ b.start) ∧
      ∀ argument ∈ call.arguments, argument.WellFormed text)
    ⟨fun ⟨h₁, h₂, h₃, h₄⟩ => ⟨h₁, h₂, h₃, h₄⟩,
      fun h => ⟨h.nonempty, h.fits, h.ordered, h.arguments⟩⟩

/-- A call that goes from the start of the text to its end. -/
def Call.widened (text : String) (call : Call) : Call :=
  { call with span := ⟨0, Text.byteLength text.toList, Nat.zero_le _⟩ }

theorem Call.Placed.widened (h : call.Placed text) : (call.widened text).WellFormed text where
  nonempty := h.nonempty
  inside s hs := ⟨Nat.zero_le _, (h.fits s hs).2.le_byteLength⟩
  fits := h.fits
  ordered := h.ordered
  arguments := h.arguments

/-- The places of the call that can be edited precede each other, wherever the call itself ends. -/
theorem Call.Placed.pairwise_anchors (h : call.Placed text) :
    call.anchors.Pairwise Span.Precedes :=
  h.widened.pairwise_anchors

theorem Call.rewritten_widened (text : String) (call : Call) (contents : List String) :
    (call.widened text).rewritten text contents = call.rewritten text contents := rfl

namespace Rule

/-! ## The text of an argument -/

/-- What a literal is under a transform: what its edit writes, or its own text without one. -/
def literalText (text : String) (transform? : Option LiteralTransform) (literal : Span × Literal) :
    String :=
  ((transform?.bind (literal.2.edit? text literal.1)).map Edit.replacement).getD
    (Text.slice text literal.1)

/-- The text of an argument in which every literal is what it is under the transform of the rule for
the argument at a position. -/
def spelled (rule : Rule) (text : String) (index : Nat) (argument : Expr) : String :=
  String.ofList (Edit.splice text.toList argument.span.start
    (argument.literals.map fun literal =>
      ⟨literal.1, literalText text (rule.transform? index argument) literal⟩)
    argument.span.stop)

theorem padded_filterMap {α : Type} (text : String) (span : α → Span) (f : α → Option Edit)
    (hf : ∀ x e, f x = some e → e.span = span x) (xs : List α) :
    Edit.Padded text (xs.filterMap f) (xs.map fun x =>
      ⟨span x, ((f x).map Edit.replacement).getD (Text.slice text (span x))⟩) := by
  induction xs with
  | nil => exact .nil
  | cons x xs ih =>
    rw [List.map_cons]
    cases hx : f x with
    | none =>
      rw [List.filterMap_cons_none hx]
      exact ih.idle (span x)
    | some e =>
      rw [List.filterMap_cons_some hx, ← hf x e hx]
      exact ih.keep e

/-- The text that a rule gives an argument is the one with all literals under its transform. -/
theorem respelled_eq_spelled (h : argument.WellFormed text)
    (hfits : argument.span.Fits text.toList) :
    rule.respelled text index argument = rule.spelled text index argument := by
  have hsorted := pairwise_literals h.apart
  have hwithin : ∀ transform?, Edit.Within text.toList argument.span.start
      (argument.literals.map fun literal => ⟨literal.1, literalText text transform? literal⟩)
      argument.span.stop := by
    intro transform?
    refine ⟨hfits.1, hfits.2, argument.span.start_le_stop, ?_, ?_, ?_, ?_⟩
    · exact List.forall_mem_map.2 fun literal hl => h.fits literal hl
    · exact List.forall_mem_map.2 fun literal hl => (h.inside literal hl).1
    · exact List.forall_mem_map.2 fun literal hl => (h.inside literal hl).2
    · exact List.pairwise_map.2 (hsorted.imp Span.Precedes.stop_le)
  unfold respelled spelled
  cases rule.transform? index argument with
  | none =>
    have hpad := padded_filterMap text Prod.fst (fun _ => none) nofun argument.literals
    rw [List.filterMap_eq_nil_iff.2 fun _ _ => rfl] at hpad
    exact congrArg String.ofList (Edit.splice_padded hpad (hwithin none))
  | some transform =>
    have hspan : ∀ (literal : Span × Literal) e,
        literal.2.edit? text literal.1 transform = some e → e.span = literal.1 := by
      intro literal e he
      obtain ⟨_, _, _, _, rfl⟩ := Literal.edit?_eq_some_iff.1 he
      rfl
    have hpad := padded_filterMap text Prod.fst
      (fun literal => literal.2.edit? text literal.1 transform) hspan argument.literals
    exact congrArg String.ofList (Edit.splice_padded hpad (hwithin (some transform)))

/-! ## The order of the arguments -/

/-- Whether the argument at a position moves behind the others. -/
def movesAt (rule : Rule) (arguments : List Expr) (index : Nat) : Bool :=
  arguments[index]?.any (rule.movesToLast index)

/-- The positions of the arguments, those of the arguments that move behind the others. -/
def order (rule : Rule) (arguments : List Expr) : List Nat :=
  (List.range arguments.length).filter (fun index => !rule.movesAt arguments index)
    ++ (List.range arguments.length).filter (rule.movesAt arguments)

/-- The positions are put into another order. None is lost and none is doubled. -/
theorem order_perm (rule : Rule) (arguments : List Expr) :
    (rule.order arguments).Perm (List.range arguments.length) := by
  have h := List.filter_append_perm (fun index => !rule.movesAt arguments index)
    (List.range arguments.length)
  simpa [order] using h

/-- The text of the argument at a position. -/
def textAt (rule : Rule) (text : String) (arguments : List Expr) (index : Nat) : String :=
  (arguments[index]?.map (rule.spelled text index)).getD ""

theorem map_snd_arrange (rule : Rule) (arguments : List Expr) :
    (rule.arrange arguments).map Prod.snd = rule.order arguments := by
  have hrange : List.range arguments.length = arguments.zipIdx.map Prod.snd := by
    rw [List.zipIdx_map_snd, List.range_eq_range']
  have hfilter : ∀ p : Bool → Bool, (List.range arguments.length).filter
      (fun index => p (rule.movesAt arguments index)) =
      (arguments.zipIdx.filter fun numbered =>
        p (rule.movesToLast numbered.2 numbered.1)).map Prod.snd := by
    intro p
    rw [hrange, List.filter_map]
    refine congrArg (List.map Prod.snd) (List.filter_congr fun numbered hmem => ?_)
    obtain ⟨argument, index⟩ := numbered
    have hget : arguments[index]? = some argument := List.mem_zipIdx_iff_getElem?.1 hmem
    simp [movesAt, hget]
  have hstay := hfilter not
  have hmove := hfilter id
  unfold order arrange
  rw [List.map_append]
  exact (congr (congrArg _ hstay) hmove).symm

/-- Every slot gets the text of the argument that comes to stand there. -/
theorem slotEdits_eq (rule : Rule) (h : call.Placed text) :
    rule.slotEdits text call.arguments = List.zipWith Edit.mk (call.arguments.map Expr.span)
      ((rule.order call.arguments).map (rule.textAt text call.arguments)) := by
  have htexts : (rule.order call.arguments).map (rule.textAt text call.arguments) =
      (rule.arrange call.arguments).map fun numbered =>
        rule.respelled text numbered.2 numbered.1 := by
    rw [← map_snd_arrange, List.map_map]
    refine List.map_congr_left fun numbered hmem => ?_
    obtain ⟨argument, index⟩ := numbered
    have hzip := (arrange_perm rule call.arguments).mem_iff.1 hmem
    have hget : call.arguments[index]? = some argument := List.mem_zipIdx_iff_getElem?.1 hzip
    have hargument := List.mem_of_getElem? hget
    rw [respelled_eq_spelled (h.arguments argument hargument)
      (h.fits _ (Call.span_mem_slots hargument))]
    simp [textAt, hget]
  rw [htexts, List.zipWith_map]
  exact List.map_zip_eq_zipWith

/-! ## The call -/

theorem length_order (rule : Rule) (arguments : List Expr) :
    (rule.order arguments).length = arguments.length := by
  rw [(order_perm rule arguments).length_eq, List.length_range]

theorem span_of_mem_front {e : Edit} (he : e ∈ rule.targetEdits call ++ rule.renameEdits call) :
    e.span = call.front ∨ e.span = call.callee.name.span := by
  rcases List.mem_append.1 he with he | he
  · have hmem := (padded_targetEdits rule "" call).sublist.subset he
    exact .inl (congrArg Edit.span (List.mem_singleton.1 hmem))
  · have hmem := (padded_renameEdits rule "" call).sublist.subset he
    exact .inr (congrArg Edit.span (List.mem_singleton.1 hmem))

/-- The edits of the places of the receiver and of the name are no edits of the slots. -/
theorem exists_mem_span_iff (hanchors : call.anchors.Pairwise Span.Precedes) {slot : Span}
    (hslot : slot ∈ call.arguments.map Expr.span) (edits : List Edit) :
    (∃ e ∈ rule.targetEdits call ++ (rule.renameEdits call ++ edits), e.span = slot) ↔
      ∃ e ∈ edits, e.span = slot := by
  obtain ⟨hfront, hrest⟩ := List.pairwise_cons.1 hanchors
  obtain ⟨hname, _⟩ := List.pairwise_cons.1 hrest
  constructor
  · rintro ⟨e, he, rfl⟩
    rw [← List.append_assoc] at he
    rcases List.mem_append.1 he with he | he
    · rcases span_of_mem_front he with heq | heq
      · exact absurd heq.symm (hfront _ (List.mem_cons_of_mem _ hslot)).2
      · exact absurd heq.symm (hname _ hslot).2
    · exact ⟨e, he, rfl⟩
  · rintro ⟨e, he, hspan⟩
    exact ⟨e, List.mem_append_right _ (List.mem_append_right _ he), hspan⟩

/-- The edits of arguments that are changed one by one are those that are not idle. -/
theorem argumentEdits_of_arguments (hreorder : rule.reorder? = none) (hrules : rule.arguments ≠ [])
    (h : ∀ argument ∈ call.arguments, argument.WellFormed text)
    (hslots : ∀ s ∈ call.slots, s.Fits text.toList) :
    rule.argumentEdits text call =
      .ok ((rule.slotEdits text call.arguments).filter fun e => ¬ e.IsIdle text, []) := by
  unfold argumentEdits
  rw [hreorder]
  simp only
  rw [if_neg (by simpa using hrules), transformEdits_eq_ok rule h hslots]
  rfl

/-- **What becomes of arguments that are changed one by one.** They are put into an order that loses
and doubles none, those that move behind those that stay. Every slot then holds the argument that
comes to stand there, with its literals changed by the rule for it at its old position. A slot has
an edit exactly when that changes its text. -/
theorem fix?_of_arguments (rule : Rule) (hreorder : rule.reorder? = none)
    (hrules : rule.arguments ≠ []) (hselects : rule.signature.selects call = true)
    (h : call.Placed text) :
    (rule.order call.arguments).Perm (List.range call.arguments.length) ∧
      ∃ fix, rule.fix? text call = .ok (some fix) ∧
        Edit.applyAll text fix.edits = .ok (call.rewritten text
          (rule.frontText text call :: rule.nameText text call ::
            (rule.order call.arguments).map (rule.textAt text call.arguments))) ∧
        ∀ (i j : Nat) (slot : Expr), call.arguments[i]? = some slot →
          (rule.order call.arguments)[i]? = some j →
          ((∃ e ∈ fix.edits, e.span = slot.span) ↔
            rule.textAt text call.arguments j ≠ Text.slice text slot.span) := by
  refine ⟨order_perm rule call.arguments, ?_⟩
  have hok := argumentEdits_of_arguments hreorder hrules h.arguments h.fits
  have hpad := Edit.padded_filter text (rule.slotEdits text call.arguments)
  rw [slotEdits_eq rule h] at hok hpad
  have hlen : ((rule.order call.arguments).map (rule.textAt text call.arguments)).length =
      call.arguments.length := by
    rw [List.length_map, length_order]
  have hanchors : call.anchors.Pairwise Span.Precedes := h.widened.pairwise_anchors
  obtain ⟨hfix, hall⟩ := fix_eq_ok_of_padded hanchors hok hlen hpad
  -- where the call itself ends does not matter to what its edits do
  have happly := applyAll_padded h.widened (by simp [length_order, Call.widened]) hall
  rw [Call.rewritten_widened] at happly
  refine ⟨⟨call.span, _, []⟩, ?_, happly, ?_⟩
  · unfold fix?
    rw [if_pos hselects, hfix]
    rfl
  · intro i j slot hslot hj
    have hspan : (call.arguments.map Expr.span)[i]? = some slot.span := by
      rw [List.getElem?_map, hslot]
      rfl
    have hcontent : ((rule.order call.arguments).map (rule.textAt text call.arguments))[i]? =
        some (rule.textAt text call.arguments j) := by
      rw [List.getElem?_map, hj]
      rfl
    have hslots : (call.arguments.map Expr.span).Pairwise Span.Precedes := hanchors.tail.tail
    rw [exists_mem_span_iff hanchors (List.mem_of_getElem? hspan)]
    exact Edit.exists_mem_filter_iff hslots (by rw [hlen, List.length_map]) hspan hcontent

/-- The first argument of `f(g(1), h)` moves behind the second one. -/
theorem fix?_of_arguments_rotateToU :
    rotateToU.reorder? = none ∧ rotateToU.arguments ≠ [] ∧
      rotateToU.signature.selects outerCall = true ∧ outerCall.Placed "f(g(1), h)" ∧
      rotateToU.order outerCall.arguments = [1, 0] ∧
      ∃ fix, rotateToU.fix? "f(g(1), h)" outerCall = .ok (some fix) ∧
        Edit.applyAll "f(g(1), h)" fix.edits = .ok "U.f(h, g(1))" := by
  have hselects : rotateToU.signature.selects outerCall = true := by decide +kernel
  have hplaced : outerCall.Placed "f(g(1), h)" := by decide +kernel
  have horder : rotateToU.order outerCall.arguments = [1, 0] := by decide +kernel
  obtain ⟨-, fix, hfix, happly, -⟩ :=
    fix?_of_arguments rotateToU rfl (List.cons_ne_nil _ _) hselects hplaced
  have htext : outerCall.rewritten "f(g(1), h)"
      (rotateToU.frontText "f(g(1), h)" outerCall ::
        rotateToU.nameText "f(g(1), h)" outerCall ::
        (rotateToU.order outerCall.arguments).map
          (rotateToU.textAt "f(g(1), h)" outerCall.arguments)) = "U.f(h, g(1))" := by
    decide +kernel
  exact ⟨rfl, List.cons_ne_nil _ _, hselects, hplaced, horder, fix, hfix, htext ▸ happly⟩

end Rule

end CallRefactor
