import CallRefactor.Proofs.Fix.Arrange
import Mathlib.Data.Nat.Find

/-!
# Arguments in a new order

A rule with reorder keys puts all arguments of a call into the order of the keys, or none. The key
at a position names the parameter whose argument is to stand there, and positions behind the last
key keep their arguments. What moves is the argument as it stands in the text, with its literals
changed by the rule for the position that it moves to. If a key finds no argument, the first such
key is reported and nothing moves, while the name and the receiver change all the same.

Main statement: `fix?_of_reorder`.
-/

namespace CallRefactor

variable {rule : Rule} {text : String} {call : Call} {method : Method} {argument : Expr}
  {keys rest : List ReorderKey} {key : ReorderKey} {position : Nat}

/-! ## What the keys ask for -/

/-- The position of the argument that is to stand at a position: that of the parameter which the
key there names, or the position itself behind the last key. -/
def ReorderKey.source? (method : Method) (keys : List ReorderKey) (position : Nat) : Option Nat :=
  match keys[position]? with
  | some key => key.parameter? method
  | none => some position

theorem ReorderKey.source?_of_getElem? (h : keys[position]? = some key) :
    source? method keys position = key.parameter? method := by
  unfold source?
  rw [h]

theorem ReorderKey.source?_of_le (h : keys.length ≤ position) :
    source? method keys position = some position := by
  unfold source?
  rw [List.getElem?_eq_none h]

namespace Call

/-- Nothing can be put at a position if the key there names no parameter, or the one of another
position that has no argument. -/
def Unresolved (call : Call) (method : Method) (keys : List ReorderKey) (position : Nat) : Prop :=
  ∀ source ∈ ReorderKey.source? method keys position,
    source ≠ position ∧ call.arguments.length ≤ source

instance (call : Call) (method : Method) (keys : List ReorderKey) :
    DecidablePred (call.Unresolved method keys) := fun position =>
  inferInstanceAs (Decidable (∀ source ∈ ReorderKey.source? method keys position,
    source ≠ position ∧ call.arguments.length ≤ source))

/-- Only a position with a key can be unresolved. -/
theorem Unresolved.exists_key (h : call.Unresolved method keys position) :
    ∃ key, keys[position]? = some key := by
  rcases Nat.lt_or_ge position keys.length with hlt | hge
  · exact ⟨keys[position], List.getElem?_eq_getElem hlt⟩
  · exact absurd rfl (h position (ReorderKey.source?_of_le hge)).1

/-- The argument that moves to a position. The one that stands there already does not move. -/
def incoming? (call : Call) (method : Method) (keys : List ReorderKey) (position : Nat) :
    Option Expr :=
  ((ReorderKey.source? method keys position).filter (· ≠ position)).bind (call.arguments[·]?)

theorem incoming?_eq_some_iff : call.incoming? method keys position = some argument ↔
    ∃ source, ReorderKey.source? method keys position = some source ∧ source ≠ position ∧
      call.arguments[source]? = some argument := by
  unfold incoming?
  simp only [Option.bind_eq_some_iff, Option.filter_eq_some_iff, decide_eq_true_eq, and_assoc]

theorem incoming?_of_eq (h : ReorderKey.source? method keys position = some position) :
    call.incoming? method keys position = none := by
  unfold incoming?
  rw [h, Option.filter_some_neg (by simp)]
  rfl

/-- A resolved position keeps its argument or gets another one. -/
theorem source?_eq_or_exists_incoming (h : ¬ call.Unresolved method keys position) :
    ReorderKey.source? method keys position = some position ∨
      ∃ argument, call.incoming? method keys position = some argument := by
  unfold Unresolved at h
  push Not at h
  obtain ⟨source, hsource, hargument⟩ := h
  by_cases heq : source = position
  · exact .inl (heq ▸ hsource)
  · exact .inr ⟨_, incoming?_eq_some_iff.2
      ⟨source, hsource, heq, List.getElem?_eq_getElem (hargument heq)⟩⟩

end Call

namespace Rule

/-! ## What comes to stand in a slot -/

/-- The edit that writes the argument that moves to a position into the slot there. -/
def incomingEdit? (rule : Rule) (text : String) (call : Call) (method : Method)
    (keys : List ReorderKey) (slot : Expr × Nat) : Option Edit :=
  (call.incoming? method keys slot.2).map fun argument =>
    ⟨slot.1.span, rule.spelled text slot.2 argument⟩

/-- What stands in the slots once the arguments are in the order of the keys. -/
def reorderedTexts (rule : Rule) (text : String) (call : Call) (method : Method)
    (keys : List ReorderKey) : List String :=
  call.arguments.zipIdx.map fun (slot, position) =>
    ((call.incoming? method keys position).map (rule.spelled text position)).getD
      (Text.slice text slot.span)

/-! ## One key after the other -/

/-- A key that finds an argument adds the edit of its slot. -/
theorem reorderFrom_cons_of_resolved (h : call.Placed text) (hkey : keys[position]? = some key)
    (hresolved : ¬ call.Unresolved method keys position) (slot : Expr) (slots : List Expr) :
    (rule.reorderFrom text call method position (key :: rest) (slot :: slots)).run
      = (rule.reorderFrom text call method (position + 1) rest slots).run.map (Except.map
          ((rule.incomingEdit? text call method keys (slot, position)).toList ++ ·)) := by
  unfold incomingEdit?
  rcases Call.source?_eq_or_exists_incoming hresolved with hstay | ⟨argument, hincoming⟩
  · rw [Call.incoming?_of_eq hstay]
    rw [ReorderKey.source?_of_getElem? hkey] at hstay
    rw [reorderFrom_cons_of_eq rule text hstay]
    rcases (rule.reorderFrom text call method (position + 1) rest slots).run with
      fault | conflict | edits <;> rfl
  · obtain ⟨source, hsource, hne, hargument⟩ := Call.incoming?_eq_some_iff.1 hincoming
    have hmem := List.mem_of_getElem? hargument
    have hwell := h.arguments argument hmem
    have hfits := h.fits _ (Call.span_mem_slots hmem)
    rw [ReorderKey.source?_of_getElem? hkey] at hsource
    rw [hincoming, reorderFrom_cons_of_ne rule hsource hne hargument hwell hfits,
      respelled_eq_spelled hwell hfits]
    rfl

/-- If every key finds an argument, the edits are those of the slots that get another one. -/
theorem reorderFrom_of_resolved (h : call.Placed text) (slots : List Expr)
    (hresolved : ∀ q < position + slots.length, ¬ call.Unresolved method keys q) :
    (rule.reorderFrom text call method position (keys.drop position) slots).run
      = .ok (.ok ((slots.zipIdx position).filterMap
          (rule.incomingEdit? text call method keys))) := by
  induction slots generalizing position with
  | nil => cases keys.drop position <;> rfl
  | cons slot slots ih =>
    rw [List.length_cons] at hresolved
    rcases Nat.lt_or_ge position keys.length with hlt | hge
    · rw [List.drop_eq_getElem_cons hlt, reorderFrom_cons_of_resolved h
        (List.getElem?_eq_getElem hlt) (hresolved position (by omega)),
        ih fun q hq => hresolved q (by omega), List.zipIdx_cons]
      cases hedit : rule.incomingEdit? text call method keys (slot, position) with
      | none => rw [List.filterMap_cons_none hedit]; rfl
      | some e => rw [List.filterMap_cons_some hedit]; rfl
    · -- behind the last key every argument stays
      have hnone : ((slot :: slots).zipIdx position).filterMap
          (rule.incomingEdit? text call method keys) = [] := by
        refine List.filterMap_eq_nil_iff.2 fun numbered hmem => ?_
        have hle := List.le_snd_of_mem_zipIdx hmem
        unfold incomingEdit?
        rw [Call.incoming?_of_eq (ReorderKey.source?_of_le (by omega))]
        rfl
      rw [List.drop_eq_nil_of_le hge, hnone]
      rfl

/-- The first key that finds no argument is reported. -/
theorem reorderFrom_of_unresolved (h : call.Placed text) {first : Nat} (slots : List Expr)
    (hle : position ≤ first) (hlt : first < position + slots.length)
    (hkey : keys[first]? = some key) (hfirst : call.Unresolved method keys first)
    (hbefore : ∀ q < first, ¬ call.Unresolved method keys q) :
    (rule.reorderFrom text call method position (keys.drop position) slots).run
      = .ok (.error (.unresolvedTarget call.span (toString key))) := by
  induction slots generalizing position with
  | nil => simp at hlt; omega
  | cons slot slots ih =>
    rw [List.length_cons] at hlt
    have hlength : first < keys.length := (List.getElem?_eq_some_iff.1 hkey).1
    have hposition : position < keys.length := by omega
    rw [List.drop_eq_getElem_cons hposition]
    rcases Nat.lt_or_eq_of_le hle with hearlier | rfl
    · rw [reorderFrom_cons_of_resolved h (List.getElem?_eq_getElem hposition)
        (hbefore position hearlier), ih hearlier (by omega)]
      rfl
    · obtain rfl : keys[position] = key := (List.getElem?_eq_some_iff.1 hkey).2
      refine reorderFrom_cons_of_unresolved rule text fun source hsource => ?_
      rw [← ReorderKey.source?_of_getElem? hkey] at hsource
      obtain ⟨hne, hbound⟩ := hfirst source hsource
      exact ⟨hne, List.getElem?_eq_none hbound⟩

/-! ## The argument phase -/

theorem argumentEdits_of_reorder (hreorder : rule.reorder? = some keys)
    (hmethod : call.method = some method) {edits : List Edit}
    (h : (rule.reorderFrom text call method 0 keys call.arguments).run = .ok (.ok edits)) :
    rule.argumentEdits text call = .ok (edits, []) := by
  unfold argumentEdits reorderEdits
  rw [hreorder, hmethod]
  simp only [h]
  rfl

theorem argumentEdits_of_conflict (hreorder : rule.reorder? = some keys)
    (hmethod : call.method = some method) {conflict : Conflict}
    (h : (rule.reorderFrom text call method 0 keys call.arguments).run
      = .ok (.error conflict)) :
    rule.argumentEdits text call = .ok ([], [conflict]) := by
  unfold argumentEdits reorderEdits
  rw [hreorder, hmethod]
  simp only [h]
  rfl

/-- The fix of a call that the edits of some of its slots make up can be carried out. -/
theorem fix?_of_padded {edits : List Edit} {conflicts : List Conflict} {contents : List String}
    (hselects : rule.signature.selects call = true) (h : call.Placed text)
    (hok : rule.argumentEdits text call = .ok (edits, conflicts))
    (hlen : contents.length = call.arguments.length)
    (hpad : Edit.Padded text edits
      (List.zipWith Edit.mk (call.arguments.map Expr.span) contents)) :
    rule.fix? text call = .ok (some
        ⟨call.span, rule.targetEdits call ++ (rule.renameEdits call ++ edits), conflicts⟩) ∧
      Edit.applyAll text (rule.targetEdits call ++ (rule.renameEdits call ++ edits))
        = .ok (call.rewritten text
            (rule.frontText text call :: rule.nameText text call :: contents)) := by
  obtain ⟨hfix, hall⟩ := fix_eq_ok_of_padded h.pairwise_anchors hok hlen hpad
  have happly := applyAll_padded h.widened (by simp [hlen, Call.widened]) hall
  rw [Call.rewritten_widened] at happly
  exact ⟨fix?_eq_some_iff.2 ⟨hselects, hfix⟩, happly⟩

theorem padded_incomingEdits (rule : Rule) (text : String) (call : Call) (method : Method)
    (keys : List ReorderKey) :
    Edit.Padded text (call.arguments.zipIdx.filterMap (rule.incomingEdit? text call method keys))
      (List.zipWith Edit.mk (call.arguments.map Expr.span)
        (rule.reorderedTexts text call method keys)) := by
  have hspan : ∀ slot e, rule.incomingEdit? text call method keys slot = some e →
      e.span = slot.1.span := by
    intro slot e he
    obtain ⟨argument, _, rfl⟩ := Option.map_eq_some_iff.1 he
    rfl
  have hpad := padded_filterMap text (fun slot : Expr × Nat => slot.1.span)
    (rule.incomingEdit? text call method keys) hspan call.arguments.zipIdx
  have hslots : call.arguments.map Expr.span = call.arguments.zipIdx.map (·.1.span) := by
    rw [← Function.comp_def Expr.span, ← List.map_map, List.zipIdx_map_fst]
  rw [hslots]
  unfold reorderedTexts
  rw [List.zipWith_map]
  simp only [incomingEdit?, Option.map_map, Function.comp_def] at hpad
  rw [List.zipWith_self]
  exact hpad

/-- A slot has an edit exactly when another argument moves there. -/
theorem exists_mem_incomingEdits_iff (h : call.Placed text) {slot : Expr}
    (hslot : call.arguments[position]? = some slot) :
    (∃ e ∈ call.arguments.zipIdx.filterMap (rule.incomingEdit? text call method keys),
      e.span = slot.span) ↔ ∃ argument, call.incoming? method keys position = some argument := by
  have hmem : (slot, position) ∈ call.arguments.zipIdx := List.mem_zipIdx_iff_getElem?.2 hslot
  have hprec : call.arguments.zipIdx.Pairwise fun a b => a.1.span.Precedes b.1.span := by
    have hslots : (call.arguments.map Expr.span).Pairwise Span.Precedes :=
      h.pairwise_anchors.tail.tail
    rw [← List.zipIdx_map_fst 0 call.arguments, List.map_map] at hslots
    exact List.pairwise_map.1 hslots
  constructor
  · rintro ⟨e, he, hspan⟩
    obtain ⟨numbered, hnumbered, hedit⟩ := List.mem_filterMap.1 he
    obtain ⟨argument, hincoming, rfl⟩ := Option.map_eq_some_iff.1 hedit
    -- no other slot has the same span
    rcases Span.eq_or_precedes_of_mem hprec hnumbered hmem with rfl | hlt | hgt
    · exact ⟨argument, hincoming⟩
    · exact absurd hspan hlt.2
    · exact absurd hspan.symm hgt.2
  · rintro ⟨argument, hincoming⟩
    have hedit : rule.incomingEdit? text call method keys (slot, position)
        = some ⟨slot.span, rule.spelled text position argument⟩ := by
      unfold incomingEdit?
      rw [hincoming]
      rfl
    exact ⟨_, List.mem_filterMap.2 ⟨_, hmem, hedit⟩, rfl⟩

/-! ## The call -/

/-- **What becomes of arguments that are put into a new order.** If the key at some position finds
no argument, the arguments stay as they are and the first such key is the only conflict. Otherwise
there is no conflict, and every position for which a key names another one gets the argument from
there, as it was in the text but for its literals, which change by the rule for the position that
the argument moves to. The other slots have no edit and keep their text. -/
theorem fix?_of_reorder (rule : Rule) (hreorder : rule.reorder? = some keys)
    (hmethod : call.method = some method) (hselects : rule.signature.selects call = true)
    (h : call.Placed text) :
    ((∃ p < call.arguments.length, call.Unresolved method keys p) →
      ∃ p key, p < call.arguments.length ∧ keys[p]? = some key ∧
        call.Unresolved method keys p ∧ (∀ q < p, ¬ call.Unresolved method keys q) ∧
        rule.fix? text call = .ok (some ⟨call.span, rule.targetEdits call ++ rule.renameEdits call,
          [.unresolvedTarget call.span (toString key)]⟩)) ∧
    ((∀ p < call.arguments.length, ¬ call.Unresolved method keys p) →
      ∃ fix, rule.fix? text call = .ok (some fix) ∧ fix.conflicts = [] ∧
        Edit.applyAll text fix.edits = .ok (call.rewritten text
          (rule.frontText text call :: rule.nameText text call ::
            rule.reorderedTexts text call method keys)) ∧
        ∀ p slot, call.arguments[p]? = some slot →
          ((∃ e ∈ fix.edits, e.span = slot.span) ↔
            ReorderKey.source? method keys p ≠ some p)) := by
  constructor
  · intro hunresolved
    obtain ⟨hlt, hfirst⟩ := Nat.find_spec hunresolved
    have hbefore : ∀ q < Nat.find hunresolved, ¬ call.Unresolved method keys q := fun q hq hq' =>
      Nat.find_min hunresolved hq ⟨by omega, hq'⟩
    obtain ⟨key, hkey⟩ := hfirst.exists_key
    have hrun : (rule.reorderFrom text call method 0 keys call.arguments).run
        = .ok (.error (.unresolvedTarget call.span (toString key))) :=
      reorderFrom_of_unresolved h call.arguments (Nat.zero_le _) (by omega) hkey hfirst hbefore
    -- no argument is edited, so all of them are completed by idle edits
    have hnone : (([] : List Edit).map Edit.span).Sublist (call.arguments.map Expr.span) :=
      List.nil_sublist _
    obtain ⟨contents, hlen, hpad⟩ := Edit.exists_padded_of_sublist hnone
    rw [List.length_map] at hlen
    have hok := argumentEdits_of_conflict hreorder hmethod hrun
    have hfix := (fix?_of_padded hselects h hok hlen hpad).1
    rw [List.append_nil] at hfix
    exact ⟨_, key, hlt, hkey, hfirst, hbefore, hfix⟩
  · intro hresolved
    have hrun : (rule.reorderFrom text call method 0 keys call.arguments).run
        = .ok (.ok (call.arguments.zipIdx.filterMap
          (rule.incomingEdit? text call method keys))) :=
      reorderFrom_of_resolved h call.arguments (by simpa using hresolved)
    have hok := argumentEdits_of_reorder hreorder hmethod hrun
    have hlen : (rule.reorderedTexts text call method keys).length = call.arguments.length := by
      simp [reorderedTexts]
    obtain ⟨hfix, happly⟩ := fix?_of_padded hselects h hok hlen
      (padded_incomingEdits rule text call method keys)
    refine ⟨_, hfix, rfl, happly, fun p slot hslot => ?_⟩
    have hspan : slot.span ∈ call.arguments.map Expr.span :=
      List.mem_map_of_mem (List.mem_of_getElem? hslot)
    rw [exists_mem_span_iff h.pairwise_anchors hspan, exists_mem_incomingEdits_iff h hslot]
    constructor
    · rintro ⟨argument, hincoming⟩ hstay
      rw [Call.incoming?_of_eq hstay] at hincoming
      cases hincoming
    · intro hne
      have hp : p < call.arguments.length := (List.getElem?_eq_some_iff.1 hslot).1
      exact (Call.source?_eq_or_exists_incoming (hresolved p hp)).resolve_left hne

/-- The call `f(g(1), h)` of a method with the parameters `a` and `b`. -/
def declaredCall : Call :=
  { outerCall with method := some ⟨"f", [⟨"a", "int"⟩, ⟨"b", "int"⟩]⟩ }

/-- Calls of methods of `T` get their arguments in the order of the keys. The literals of the
argument that comes second become `7`. -/
def reorderTo (keys : List ReorderKey) : Rule where
  signature := rotateToU.signature
  reorder? := some keys
  arguments := [{ selector := .position 1, transform? := some fun _ => .int 7 }]

/-- The arguments of `f(g(1), h)` change places, and both stay if the second key finds none. -/
theorem fix?_of_reorder_declaredCall :
    (∃ fix, (reorderTo [.name "b", .name "a"]).fix? "f(g(1), h)" declaredCall = .ok (some fix) ∧
      fix.conflicts = [] ∧ Edit.applyAll "f(g(1), h)" fix.edits = .ok "f(h, g(7))") ∧
    (reorderTo [.name "b", .position 2]).fix? "f(g(1), h)" declaredCall = .ok (some
      ⟨declaredCall.span, [], [.unresolvedTarget declaredCall.span "#2"]⟩) := by
  have hselects : rotateToU.signature.selects declaredCall = true := by decide +kernel
  have hplaced : declaredCall.Placed "f(g(1), h)" := by decide +kernel
  constructor
  · obtain ⟨fix, hfix, hconflicts, happly, _⟩ :=
      (fix?_of_reorder (reorderTo [.name "b", .name "a"]) rfl rfl hselects hplaced).2 (by decide)
    have htext : declaredCall.rewritten "f(g(1), h)"
        ((reorderTo [.name "b", .name "a"]).frontText "f(g(1), h)" declaredCall ::
          (reorderTo [.name "b", .name "a"]).nameText "f(g(1), h)" declaredCall ::
          (reorderTo [.name "b", .name "a"]).reorderedTexts "f(g(1), h)" declaredCall
            ⟨"f", [⟨"a", "int"⟩, ⟨"b", "int"⟩]⟩ [.name "b", .name "a"]) = "f(h, g(7))" := by
      decide +kernel
    exact ⟨fix, hfix, hconflicts, htext ▸ happly⟩
  · obtain ⟨p, key, hp, hkey, hunresolved, _, hfix⟩ :=
      (fix?_of_reorder (reorderTo [.name "b", .position 2]) rfl rfl hselects hplaced).1
        ⟨1, by decide, by decide⟩
    rcases p with _ | _ | p
    · exact absurd hunresolved (by decide)
    · obtain rfl := Option.some.inj hkey
      exact hfix
    · exact absurd hp (by simp [declaredCall, outerCall])

end Rule

end CallRefactor
