import CallRefactor.Fix.Call
import CallRefactor.Proofs.Edit.Compose
import CallRefactor.Proofs.Edit.Idle
import CallRefactor.Proofs.Success
import CallRefactor.Proofs.Syntax.WellFormed

/-!
# Phases of a fix

At a well-formed call no phase of a rule breaks a promise. The name and the receiver have one edit
each at most. The edits of the arguments, in a new order or one by one, are edits of their slots and
come in the order of the slots, since every slot is visited once and changed at most once.

Main statements: `argumentText_eq_ok`, the text of a well-formed argument, and
`argumentEdits_eq_ok`, the argument phase gives edits of different slots in order.
-/

namespace CallRefactor.Rule

variable {rule : Rule} {text : String} {call : Call} {argument : Expr} {index : Nat}

/-! ## The text of an argument -/

theorem map_filterMap_sublist {α β γ : Type} {f : α → Option β} {g : β → γ} {h : α → γ}
    (hf : ∀ x y, f x = some y → g y = h x) (xs : List α) :
    ((xs.filterMap f).map g).Sublist (xs.map h) := by
  induction xs with
  | nil => exact .slnil
  | cons x xs ih =>
    rw [List.filterMap_cons, List.map_cons]
    cases hx : f x with
    | none => exact ih.cons _
    | some y =>
      rw [List.map_cons, hf x y hx]
      exact ih.cons_cons _

/-- The edits of literals are edits of their tokens. -/
theorem literalEdits_sublist (transform : LiteralTransform) :
    ((literalEdits text transform argument).map Edit.span).Sublist
      (argument.literals.map Prod.fst) := by
  refine map_filterMap_sublist ?_ argument.literals
  rintro ⟨span, value⟩ e h
  obtain ⟨token, _, rfl⟩ := Option.map_eq_some_iff.1 h
  rfl

/-- Literals that do not overlap stand one after the other. -/
theorem pairwise_literals (h : argument.literals.Pairwise fun a b => ¬ a.1.Overlaps b.1) :
    argument.literals.Pairwise fun a b => a.1.Precedes b.1 :=
  (Span.pairwise_sortOn Prod.fst argument.leaves).imp₂ (fun _ _ => Span.precedes_of_le) h

/-- Literals that do not overlap have edits one after the other. -/
theorem pairwise_literalEdits (h : argument.literals.Pairwise fun a b => ¬ a.1.Overlaps b.1)
    (transform : LiteralTransform) :
    (literalEdits text transform argument).Pairwise fun a b => a.span.Precedes b.span := by
  have hliterals : (argument.literals.map Prod.fst).Pairwise Span.Precedes :=
    List.pairwise_map.2 (pairwise_literals h)
  exact List.pairwise_map.1 (hliterals.sublist (literalEdits_sublist transform))

/-- Literals inside the argument have edits inside it. -/
theorem contains_of_mem_literalEdits {e : Edit} {transform : LiteralTransform}
    (h : ∀ l ∈ argument.literals, argument.span.Contains l.1)
    (he : e ∈ literalEdits text transform argument) : argument.span.Contains e.span := by
  obtain ⟨l, hl, hle⟩ := List.mem_map.1
    ((literalEdits_sublist transform).subset (List.mem_map_of_mem he))
  rw [← hle]
  exact h l hl

/-- The text of an argument with the literals changed that the rule for it changes. -/
def respelled (rule : Rule) (text : String) (index : Nat) (argument : Expr) : String :=
  match rule.transform? index argument with
  | none => Text.slice text argument.span
  | some transform =>
    String.ofList (Edit.splice text.toList argument.span.start
      (literalEdits text transform argument) argument.span.stop)

/-- A well-formed argument that stands in the text has a text of its own, in which the tokens of its
literals are replaced. -/
theorem argumentText_eq_ok (h : argument.WellFormed text) (hfits : argument.span.Fits text.toList) :
    rule.argumentText text index argument = .ok (rule.respelled text index argument) := by
  unfold argumentText respelled
  cases rule.transform? index argument with
  | none => rfl
  | some transform =>
    have hprec : (literalEdits text transform argument).Pairwise
        fun a b => a.span.Precedes b.span := pairwise_literalEdits h.apart transform
    show (Edit.compose text argument.span (literalEdits text transform argument)).map _
      = .ok (String.ofList (Edit.splice text.toList argument.span.start
          (literalEdits text transform argument) argument.span.stop))
    by_cases hnil : literalEdits text transform argument = []
    · -- without edits nothing is composed and the argument keeps its text
      rw [hnil]
      rfl
    · rw [Edit.compose_eq_ok hnil (fun _ => contains_of_mem_literalEdits h.inside)
        (hprec.imp Span.Precedes.not_overlaps) (Edit.length_le_capacity hfits),
        Edit.sort_eq_self hprec]
      rfl

/-! ## Arguments in a new order -/

section Reorder

variable {method : Method} {position source : Nat} {key : ReorderKey} {keys : List ReorderKey}
  {slot : Expr} {slots : List Expr}

/-- A key that finds no argument for its position is a conflict. -/
theorem reorderFrom_cons_of_unresolved (rule : Rule) (text : String)
    (h : ∀ source, key.parameter? method = some source →
      source ≠ position ∧ call.arguments[source]? = none) :
    (rule.reorderFrom text call method position (key :: keys) (slot :: slots)).run
      = .ok (.error (.unresolvedTarget call.span (toString key))) := by
  unfold reorderFrom
  cases hsource : key.parameter? method with
  | none => rfl
  | some source =>
    obtain ⟨hne, hnone⟩ := h source hsource
    simp only [if_neg hne, hnone]
    rfl

/-- A slot that keeps its argument has no edit. -/
theorem reorderFrom_cons_of_eq (rule : Rule) (text : String)
    (h : key.parameter? method = some position) :
    (rule.reorderFrom text call method position (key :: keys) (slot :: slots)).run
      = (rule.reorderFrom text call method (position + 1) keys slots).run := by
  conv_lhs => unfold reorderFrom
  simp only [h, if_true]

/-- A slot that gets another argument has the edit that writes it, unless a later key is a
conflict. -/
theorem reorderFrom_cons_of_ne (rule : Rule) (h : key.parameter? method = some source)
    (hne : source ≠ position) (hargument : call.arguments[source]? = some argument)
    (hwell : argument.WellFormed text) (hfits : argument.span.Fits text.toList) :
    (rule.reorderFrom text call method position (key :: keys) (slot :: slots)).run
      = (rule.reorderFrom text call method (position + 1) keys slots).run.map
          (Except.map (⟨slot.span, rule.respelled text position argument⟩ :: ·)) := by
  conv_lhs => unfold reorderFrom
  simp only [h, if_neg hne, hargument, argumentText_eq_ok hwell hfits,
    ExceptT.run_bind]
  show Except.bind (rule.reorderFrom text call method (position + 1) keys slots).run _ = _
  rcases (rule.reorderFrom text call method (position + 1) keys slots).run with
    fault | conflict | rest <;> rfl

/-- Reordering either meets a conflict or gives edits of different slots in order. -/
theorem reorderFrom_run (rule : Rule) (method : Method)
    (hargs : ∀ a ∈ call.arguments, a.WellFormed text)
    (hslots : ∀ s ∈ call.slots, s.Fits text.toList)
    (position : Nat) (keys : List ReorderKey) (slots : List Expr) :
    ∃ outcome, (rule.reorderFrom text call method position keys slots).run = .ok outcome ∧
      ∀ edits, outcome = .ok edits →
        (edits.map Edit.span).Sublist (slots.map Expr.span) := by
  induction slots generalizing position keys with
  | nil => exact ⟨.ok [], by cases keys <;> rfl, by rintro _ ⟨⟩; exact .slnil⟩
  | cons slot slots ih =>
    cases keys with
    | nil => exact ⟨.ok [], rfl, by rintro _ ⟨⟩; exact List.nil_sublist _⟩
    | cons key keys =>
      obtain ⟨outcome, hrun, hspans⟩ := ih (position + 1) keys
      by_cases hstay : key.parameter? method = some position
      · exact ⟨outcome, by rw [reorderFrom_cons_of_eq rule text hstay, hrun],
          fun edits he => (hspans edits he).cons _⟩
      by_cases hmove : ∃ source argument, key.parameter? method = some source ∧
          call.arguments[source]? = some argument
      · obtain ⟨source, argument, hsource, hargument⟩ := hmove
        have hne : source ≠ position := fun heq => hstay (heq ▸ hsource)
        have hmem := List.mem_of_getElem? hargument
        have hwell := hargs argument hmem
        have hfits := hslots _ (Call.span_mem_slots hmem)
        refine ⟨_, by
          rw [reorderFrom_cons_of_ne rule hsource hne hargument hwell hfits, hrun]
          rfl, ?_⟩
        intro edits he
        obtain ⟨rest, rfl, rfl⟩ := map_eq_ok_iff.1 he
        exact (hspans rest rfl).cons_cons _
      · refine ⟨_, reorderFrom_cons_of_unresolved rule text fun source hsource => ⟨?_, ?_⟩,
          by rintro _ ⟨⟩⟩
        · exact fun heq => hstay (heq ▸ hsource)
        · exact Option.eq_none_iff_forall_not_mem.2 fun argument hargument =>
            hmove ⟨source, argument, hsource, hargument⟩

end Reorder

/-! ## Arguments one by one -/

theorem arrange_perm (rule : Rule) (arguments : List Expr) :
    (rule.arrange arguments).Perm arguments.zipIdx := by
  have h := List.filter_append_perm
    (fun numbered => !rule.movesToLast numbered.2 numbered.1) arguments.zipIdx
  simpa [arrange] using h

/-- The edit of a slot that is to hold an argument. -/
def slotEdit (rule : Rule) (text : String) (slot argument : Expr) (index : Nat) : Edit :=
  ⟨slot.span, rule.respelled text index argument⟩

/-- The edits of all slots, those that change nothing among them. -/
def slotEdits (rule : Rule) (text : String) (arguments : List Expr) : List Edit :=
  (arguments.zip (rule.arrange arguments)).map fun (slot, argument, index) =>
    rule.slotEdit text slot argument index

theorem slotEdit?_eq_ok (rule : Rule) (slot : Expr) (index : Nat) (h : argument.WellFormed text)
    (hfits : argument.span.Fits text.toList) :
    rule.slotEdit? text slot argument index
      = .ok (if (rule.slotEdit text slot argument index).IsIdle text then none
          else some (rule.slotEdit text slot argument index)) := by
  unfold slotEdit?
  rw [argumentText_eq_ok h hfits]
  rfl

theorem filterMap_ite_eq_filter {α β : Type} (p : β → Prop) [DecidablePred p] (f : α → β)
    (xs : List α) :
    (xs.map fun x => if p (f x) then none else some (f x)).filterMap id =
      (xs.map f).filter fun y => ¬ p y := by
  induction xs with
  | nil => rfl
  | cons x xs ih =>
    rw [List.map_cons, List.map_cons]
    by_cases hx : p (f x)
    · rw [if_pos hx, List.filter_cons_of_neg (by simpa using hx), ← ih]
      rfl
    · rw [if_neg hx, List.filter_cons_of_pos (by simpa using hx), ← ih]
      rfl

/-- Changing the arguments one by one gives every slot the argument that is put there, unless that
changes nothing. -/
theorem transformEdits_eq_ok (rule : Rule) (hargs : ∀ a ∈ call.arguments, a.WellFormed text)
    (hslots : ∀ s ∈ call.slots, s.Fits text.toList) :
    rule.transformEdits text call =
      .ok ((rule.slotEdits text call.arguments).filter fun e => ¬ e.IsIdle text) := by
  have hplaced : ∀ p ∈ call.arguments.zip (rule.arrange call.arguments),
      p.2.1 ∈ call.arguments := by
    rintro ⟨slot, argument, index⟩ hp
    have hmem := (arrange_perm rule call.arguments).mem_iff.1 (List.of_mem_zip hp).2
    exact List.fst_mem_of_mem_zipIdx hmem
  have hmap := mapM_eq_ok_map fun p hp => slotEdit?_eq_ok rule p.1 p.2.2 (hargs _ (hplaced p hp))
    (hslots _ (Call.span_mem_slots (hplaced p hp)))
  have hfilter := filterMap_ite_eq_filter (Edit.IsIdle text)
    (fun p : Expr × Expr × Nat => rule.slotEdit text p.1 p.2.1 p.2.2)
    (call.arguments.zip (rule.arrange call.arguments))
  exact (congrArg (Except.map (List.filterMap id)) hmap).trans (congrArg Except.ok hfilter)

/-! ## The argument phase -/

theorem length_arrange (rule : Rule) (arguments : List Expr) :
    (rule.arrange arguments).length = arguments.length := by
  rw [(arrange_perm rule arguments).length_eq, List.length_zipIdx]

theorem map_span_slotEdits (rule : Rule) (text : String) (arguments : List Expr) :
    (rule.slotEdits text arguments).map Edit.span = arguments.map Expr.span := by
  have hlen := length_arrange rule arguments
  unfold slotEdits
  calc _ = ((arguments.zip (rule.arrange arguments)).map Prod.fst).map Expr.span := by
        rw [List.map_map, List.map_map]
        rfl
    _ = arguments.map Expr.span := by rw [List.map_fst_zip (by omega)]

/-- The argument phase gives edits of different slots in order. -/
theorem argumentEdits_eq_ok (rule : Rule) (hargs : ∀ a ∈ call.arguments, a.WellFormed text)
    (hslots : ∀ s ∈ call.slots, s.Fits text.toList) :
    ∃ edits conflicts, rule.argumentEdits text call = .ok (edits, conflicts) ∧
      (edits.map Edit.span).Sublist (call.arguments.map Expr.span) := by
  unfold argumentEdits
  cases rule.reorder? with
  | some keys =>
    unfold reorderEdits
    cases call.method with
    | none => exact ⟨[], _, rfl, List.nil_sublist _⟩
    | some method =>
      obtain ⟨outcome, hrun, hspans⟩ :=
        reorderFrom_run rule method hargs hslots 0 keys call.arguments
      simp only [hrun]
      cases outcome with
      | error conflict => exact ⟨[], [conflict], rfl, List.nil_sublist _⟩
      | ok edits => exact ⟨edits, [], rfl, hspans edits rfl⟩
  | none =>
    by_cases hempty : rule.arguments.isEmpty
    · exact ⟨[], [], by simp only [hempty, if_true], List.nil_sublist _⟩
    · refine ⟨_, [], by simp only [hempty, transformEdits_eq_ok rule hargs hslots]; rfl, ?_⟩
      rw [← map_span_slotEdits rule text call.arguments]
      exact List.filter_sublist.map Edit.span

end CallRefactor.Rule
