import CallRefactor.Proofs.Fix.Reorder
import Mathlib.Data.List.Nodup
import Mathlib.Data.List.Perm.Subperm
import Mathlib.Data.List.Permutation

/-!
# Orders that keep all arguments

Reorder keys are read one by one, each for its own position, and positions behind the last key keep
their arguments. Nothing keeps two positions from asking for the same argument: a key can come
twice, name a parameter that another key gives by its position, or name one whose argument stays
behind the last key. So a new order keeps all arguments exactly when no two positions ask for the
same one.

Without rules for single arguments a rule only copies arguments. It does not look into them, so
nothing has to be known of an argument but its place and its type.

Main statement: `fix?_permutes`.
-/

namespace CallRefactor

variable {rule : Rule} {text : String} {call : Call} {method : Method} {keys : List ReorderKey}
  {position : Nat}

/-! ## What the host promises about places -/

/-- The parts of a call stand in the text one after the other. What the arguments are made of is not
said. -/
structure Call.Spaced (text : String) (call : Call) : Prop where
  /-- No part of the call is empty. -/
  nonempty : ∀ s ∈ call.slots, ¬ s.IsEmpty
  /-- Every part stands on boundaries of the text. -/
  fits : ∀ s ∈ call.slots, s.Fits text.toList
  /-- Every part ends before the next one starts, or where it starts. -/
  ordered : call.slots.Pairwise fun a b => a.stop ≤ b.start

instance (text : String) (call : Call) : Decidable (call.Spaced text) :=
  decidable_of_iff
    ((∀ s ∈ call.slots, ¬ s.IsEmpty) ∧ (∀ s ∈ call.slots, s.Fits text.toList) ∧
      call.slots.Pairwise fun a b => a.stop ≤ b.start)
    ⟨fun ⟨h₁, h₂, h₃⟩ => ⟨h₁, h₂, h₃⟩, fun h => ⟨h.nonempty, h.fits, h.ordered⟩⟩

/-! ## Arguments as places -/

/-- An expression of which only the place and the type are known. -/
def Expr.pruned (e : Expr) : Expr := .node e.span e.type? []

theorem Expr.wellFormed_pruned (text : String) (e : Expr) : e.pruned.WellFormed text :=
  ⟨nofun, nofun, nofun, .nil⟩

namespace Call

/-- A call of whose arguments only the places and the types are known. -/
def pruned (call : Call) : Call := { call with arguments := call.arguments.map Expr.pruned }

theorem length_pruned (call : Call) : call.pruned.arguments.length = call.arguments.length :=
  List.length_map _

theorem map_span_pruned (call : Call) :
    call.pruned.arguments.map Expr.span = call.arguments.map Expr.span := by
  unfold pruned
  rw [List.map_map]
  rfl

theorem slots_pruned (call : Call) : call.pruned.slots = call.slots := by
  unfold slots
  rw [map_span_pruned]
  rfl

theorem rewritten_pruned (text : String) (call : Call) (contents : List String) :
    call.pruned.rewritten text contents = call.rewritten text contents := by
  unfold rewritten anchors
  rw [map_span_pruned]
  rfl

theorem Spaced.pruned (h : call.Spaced text) : call.pruned.Placed text where
  nonempty := by rw [slots_pruned]; exact h.nonempty
  fits := by rw [slots_pruned]; exact h.fits
  ordered := by rw [slots_pruned]; exact h.ordered
  arguments := by
    intro argument hmem
    obtain ⟨e, -, rfl⟩ := List.mem_map.1 hmem
    exact e.wellFormed_pruned text

end Call

theorem Signature.selects_pruned (signature : Signature) (call : Call) :
    signature.selects call.pruned = signature.selects call := by
  have htypes : call.pruned.argumentTypes? = call.argumentTypes? := by
    unfold Call.argumentTypes? Call.pruned
    rw [List.mapM_map]
    rfl
  unfold selects
  rw [htypes]
  rfl

namespace Rule

theorem argumentText_of_no_rules (hrules : rule.arguments = []) (index : Nat) (argument : Expr) :
    rule.argumentText text index argument = .ok (Text.slice text argument.span) := by
  unfold argumentText transform?
  rw [hrules]
  rfl

theorem reorderFrom_pruned (hrules : rule.arguments = []) (method : Method) (position : Nat)
    (keys : List ReorderKey) (slots : List Expr) :
    rule.reorderFrom text call.pruned method position keys (slots.map Expr.pruned)
      = rule.reorderFrom text call method position keys slots := by
  induction slots generalizing position keys with
  | nil => cases keys <;> rfl
  | cons slot slots ih =>
    cases keys with
    | nil => rfl
    | cons key keys =>
      have hget : ∀ source, call.pruned.arguments[source]?
          = call.arguments[source]?.map Expr.pruned := fun _ => List.getElem?_map
      rw [List.map_cons]
      unfold reorderFrom
      simp only [ih, hget, argumentText_of_no_rules hrules]
      cases key.parameter? method with
      | none => rfl
      | some source =>
        dsimp only
        cases call.arguments[source]? <;> rfl

theorem reorderEdits_pruned (hrules : rule.arguments = []) (keys : List ReorderKey) :
    rule.reorderEdits text call.pruned keys = rule.reorderEdits text call keys := by
  have hmethod : call.pruned.method = call.method := rfl
  unfold reorderEdits
  rw [hmethod]
  cases call.method with
  | none => rfl
  | some method => exact reorderFrom_pruned hrules method 0 keys call.arguments

/-- A rule without rules for single arguments does not look into arguments. -/
theorem fix?_pruned (hrules : rule.arguments = []) :
    rule.fix? text call.pruned = rule.fix? text call := by
  have hok : rule.argumentEdits text call.pruned = rule.argumentEdits text call := by
    unfold argumentEdits
    simp only [reorderEdits_pruned hrules, hrules, List.isEmpty_nil, if_true]
  unfold fix? Rule.fix
  rw [Signature.selects_pruned, hok]
  rfl

end Rule

/-! ## Where the arguments come from -/

namespace Call

/-- The texts of the arguments of a call. -/
def argumentTexts (text : String) (call : Call) : List String :=
  call.arguments.map fun argument => Text.slice text argument.span

/-- The texts of the arguments at positions of a call. -/
def textsAt (text : String) (call : Call) (positions : List Nat) : List String :=
  positions.map fun position => (call.argumentTexts text).getD position ""

/-- The positions of the arguments that the slots are to get, slot by slot. -/
def sources (call : Call) (method : Method) (keys : List ReorderKey) : List Nat :=
  (List.range call.arguments.length).map fun position =>
    (ReorderKey.source? method keys position).getD position

theorem textsAt_range (text : String) (call : Call) :
    call.textsAt text (List.range call.arguments.length) = call.argumentTexts text := by
  refine List.ext_getElem (by simp [textsAt, argumentTexts]) fun p _ hp => ?_
  simp [textsAt, List.getElem?_eq_getElem hp]

theorem textsAt_pruned (text : String) (call : Call) (positions : List Nat) :
    call.pruned.textsAt text positions = call.textsAt text positions := by
  unfold textsAt argumentTexts pruned
  rw [List.map_map]
  rfl

theorem sources_pruned (call : Call) (method : Method) (keys : List ReorderKey) :
    call.pruned.sources method keys = call.sources method keys := by
  unfold sources
  rw [length_pruned]

theorem unresolved_pruned_iff :
    call.pruned.Unresolved method keys position ↔ call.Unresolved method keys position := by
  unfold Unresolved
  rw [length_pruned]

/-- What a resolved position gets is the argument of some position. -/
theorem exists_source (h : ¬ call.Unresolved method keys position) {slot : Expr}
    (hslot : call.arguments[position]? = some slot) :
    ∃ source argument, ReorderKey.source? method keys position = some source ∧
      call.arguments[source]? = some argument ∧
      (call.incoming? method keys position).getD slot = argument := by
  rcases source?_eq_or_exists_incoming h with hstay | ⟨argument, hincoming⟩
  · exact ⟨position, slot, hstay, hslot, by rw [incoming?_of_eq hstay]; rfl⟩
  · obtain ⟨source, hsource, -, hargument⟩ := incoming?_eq_some_iff.1 hincoming
    exact ⟨source, argument, hsource, hargument, by rw [hincoming]; rfl⟩

theorem lt_of_mem_sources (h : ∀ p < call.arguments.length, ¬ call.Unresolved method keys p)
    {source : Nat} (hmem : source ∈ call.sources method keys) :
    source < call.arguments.length := by
  obtain ⟨p, hp, rfl⟩ := List.mem_map.1 hmem
  have hlt := List.mem_range.1 hp
  obtain ⟨source, argument, hsource, hargument, -⟩ :=
    exists_source (h p hlt) (List.getElem?_eq_getElem hlt)
  rw [hsource]
  exact (List.getElem?_eq_some_iff.1 hargument).1

/-- If no two slots get the same argument, every argument comes to stand in a slot. -/
theorem sources_perm (h : ∀ p < call.arguments.length, ¬ call.Unresolved method keys p)
    (hnodup : (call.sources method keys).Nodup) :
    (call.sources method keys).Perm (List.range call.arguments.length) := by
  have hsub : call.sources method keys ⊆ List.range call.arguments.length :=
    fun source hsource => List.mem_range.2 (lt_of_mem_sources h hsource)
  exact (hnodup.subperm hsub).perm_of_length_le (by simp [sources])

end Call

namespace Rule

/-- Every slot gets the text of the argument that comes to stand there. -/
theorem reorderedTexts_of_no_rules (hrules : rule.arguments = []) (h : call.Placed text)
    (hresolved : ∀ p < call.arguments.length, ¬ call.Unresolved method keys p) :
    rule.reorderedTexts text call method keys = call.textsAt text (call.sources method keys) := by
  have hspelled : ∀ index, ∀ argument ∈ call.arguments,
      rule.spelled text index argument = Text.slice text argument.span := by
    intro index argument hmem
    rw [← respelled_eq_spelled (h.arguments argument hmem) (h.fits _ (Call.span_mem_slots hmem))]
    unfold respelled transform?
    rw [hrules]
    rfl
  have hrange : List.range call.arguments.length = call.arguments.zipIdx.map Prod.snd := by
    rw [List.zipIdx_map_snd, List.range_eq_range']
  unfold reorderedTexts Call.textsAt Call.sources
  rw [hrange, List.map_map, List.map_map]
  refine List.map_congr_left fun numbered hmem => ?_
  obtain ⟨slot, position⟩ := numbered
  have hslot : call.arguments[position]? = some slot := List.mem_zipIdx_iff_getElem?.1 hmem
  have hlt : position < call.arguments.length := (List.getElem?_eq_some_iff.1 hslot).1
  obtain ⟨source, argument, hsource, hargument, hcomes⟩ :=
    Call.exists_source (hresolved position hlt) hslot
  have htext : (call.argumentTexts text).getD source "" = Text.slice text argument.span := by
    unfold Call.argumentTexts
    rw [List.getD_eq_getElem?_getD, List.getElem?_map, hargument]
    rfl
  show ((call.incoming? method keys position).map (rule.spelled text position)).getD
      (Text.slice text slot.span)
    = (call.argumentTexts text).getD ((ReorderKey.source? method keys position).getD position) ""
  rw [hsource, Option.getD_some, htext]
  cases hincoming : call.incoming? method keys position with
  | none =>
    rw [hincoming] at hcomes
    obtain rfl := hcomes
    rfl
  | some moved =>
    rw [hincoming] at hcomes
    obtain rfl := hcomes
    exact hspelled position moved (List.mem_of_getElem? hargument)

/-! ## The call -/

/-- If some key finds no argument, nothing moves and there is a conflict. -/
theorem argumentEdits_of_exists_unresolved (hreorder : rule.reorder? = some keys)
    (hmethod : call.method = some method) (h : call.Placed text)
    (hunresolved : ∃ p < call.arguments.length, call.Unresolved method keys p) :
    ∃ conflict, rule.argumentEdits text call = .ok ([], [conflict]) := by
  obtain ⟨hlt, hfirst⟩ := Nat.find_spec hunresolved
  have hbefore : ∀ q < Nat.find hunresolved, ¬ call.Unresolved method keys q := fun q hq hq' =>
    Nat.find_min hunresolved hq ⟨by omega, hq'⟩
  obtain ⟨key, hkey⟩ := hfirst.exists_key
  exact ⟨_, argumentEdits_of_conflict hreorder hmethod
    (reorderFrom_of_unresolved h call.arguments (Nat.zero_le _) (by omega) hkey hfirst hbefore)⟩

/-- Without a conflict every position is resolved, and every slot holds the argument that it is to
get. -/
theorem exists_fix_of_no_rules (hreorder : rule.reorder? = some keys)
    (hrules : rule.arguments = []) (hmethod : call.method = some method)
    (hselects : rule.signature.selects call = true) (h : call.Placed text) :
    ∃ fix, rule.fix? text call = .ok (some fix) ∧ (fix.conflicts = [] →
      (∀ p < call.arguments.length, ¬ call.Unresolved method keys p) ∧
      Edit.applyAll text fix.edits = .ok (call.rewritten text (rule.frontText text call ::
        rule.nameText text call :: call.textsAt text (call.sources method keys)))) := by
  by_cases hresolved : ∀ p < call.arguments.length, ¬ call.Unresolved method keys p
  · have hrun : (rule.reorderFrom text call method 0 keys call.arguments).run
        = .ok (.ok (call.arguments.zipIdx.filterMap
          (rule.incomingEdit? text call method keys))) :=
      reorderFrom_of_resolved h call.arguments (by simpa using hresolved)
    obtain ⟨hfix, happly⟩ := fix?_of_padded hselects h
      (argumentEdits_of_reorder hreorder hmethod hrun) (by simp [reorderedTexts])
      (padded_incomingEdits rule text call method keys)
    rw [reorderedTexts_of_no_rules hrules h hresolved] at happly
    exact ⟨_, hfix, fun _ => ⟨hresolved, happly⟩⟩
  · push Not at hresolved
    obtain ⟨conflict, hok⟩ := argumentEdits_of_exists_unresolved hreorder hmethod h hresolved
    have hnone : (([] : List Edit).map Edit.span).Sublist (call.arguments.map Expr.span) :=
      List.nil_sublist _
    obtain ⟨contents, hlen, hpad⟩ := Edit.exists_padded_of_sublist hnone
    rw [List.length_map] at hlen
    exact ⟨_, (fix?_of_padded hselects h hok hlen hpad).1,
      fun hnone => absurd hnone (List.cons_ne_nil _ _)⟩

/-- **Which new orders keep all arguments.** A rule that only puts arguments into a new order breaks
no promise at a call whose parts stand one after the other. Without a conflict, the arguments in the
slots are in the end those of the positions that the keys ask for. If no two slots ask for the same
one, they are the old arguments in another order. If two do and all arguments have different texts,
they are not. -/
theorem fix?_permutes (rule : Rule) (hreorder : rule.reorder? = some keys)
    (hrules : rule.arguments = []) (hmethod : call.method = some method)
    (hselects : rule.signature.selects call = true) (h : call.Spaced text) :
    ∃ fix, rule.fix? text call = .ok (some fix) ∧ (fix.conflicts = [] →
      Edit.applyAll text fix.edits = .ok (call.rewritten text (rule.frontText text call ::
        rule.nameText text call :: call.textsAt text (call.sources method keys))) ∧
      ((call.sources method keys).Nodup →
        (call.textsAt text (call.sources method keys)).Perm (call.argumentTexts text)) ∧
      ((call.argumentTexts text).Nodup →
        (call.textsAt text (call.sources method keys)).Perm (call.argumentTexts text) →
        (call.sources method keys).Nodup)) := by
  have hmethod' : call.pruned.method = some method := hmethod
  rw [← Signature.selects_pruned] at hselects
  obtain ⟨fix, hfix, hnone⟩ := exists_fix_of_no_rules hreorder hrules hmethod' hselects h.pruned
  rw [fix?_pruned hrules] at hfix
  refine ⟨fix, hfix, fun hconflicts => ?_⟩
  obtain ⟨hresolved, happly⟩ := hnone hconflicts
  rw [Call.rewritten_pruned, Call.textsAt_pruned, Call.sources_pruned] at happly
  simp only [Call.length_pruned, Call.unresolved_pruned_iff] at hresolved
  refine ⟨happly, fun hnodup => ?_, fun hnodup hperm => ?_⟩
  · rw [← Call.textsAt_range]
    exact (Call.sources_perm hresolved hnodup).map _
  · -- what a slot gets twice would be twice among the old texts
    exact List.Nodup.of_map _ (hperm.nodup_iff.2 hnodup)

/-- Calls of methods of `T` get their arguments in the order of the keys, just as they are. -/
def copyTo (keys : List ReorderKey) : Rule where
  signature := rotateToU.signature
  reorder? := some keys

/-- The arguments of `f(g(1), h)` change places. -/
theorem fix?_permutes_declaredCall :
    (copyTo [.name "b", .position 0]).signature.selects declaredCall = true ∧
      declaredCall.Spaced "f(g(1), h)" ∧
      ∃ fix, (copyTo [.name "b", .position 0]).fix? "f(g(1), h)" declaredCall = .ok (some fix) ∧
        fix.conflicts = [] ∧ Edit.applyAll "f(g(1), h)" fix.edits = .ok "f(h, g(1))" ∧
        ["h", "g(1)"].Perm (declaredCall.argumentTexts "f(g(1), h)") := by
  have hselects : rotateToU.signature.selects declaredCall = true := by decide +kernel
  have hspaced : declaredCall.Spaced "f(g(1), h)" := by decide +kernel
  obtain ⟨fix, hfix, hnone⟩ :=
    fix?_permutes (copyTo [.name "b", .position 0]) rfl rfl rfl hselects hspaced
  have hconflicts : fix.conflicts = [] := by
    obtain rfl := Option.some.inj (Except.ok.inj hfix)
    rfl
  obtain ⟨happly, hperm, -⟩ := hnone hconflicts
  have htexts : declaredCall.textsAt "f(g(1), h)" (declaredCall.sources
      ⟨"f", [⟨"a", "int"⟩, ⟨"b", "int"⟩]⟩ [.name "b", .position 0]) = ["h", "g(1)"] := by
    decide +kernel
  rw [htexts] at happly hperm
  exact ⟨hselects, hspaced, fix, hfix, hconflicts, happly.trans (by decide +kernel),
    hperm (by decide)⟩

/-- The argument `h` is asked for by the key and stays behind it as well, so `g(1)` is lost: no
arrangement of the two gives the text that comes out. -/
theorem not_permutes_declaredCall :
    (copyTo [.name "b"]).arguments = [] ∧ declaredCall.method.isSome ∧
      declaredCall.Spaced "f(g(1), h)" ∧
      ∃ fix, (copyTo [.name "b"]).fix? "f(g(1), h)" declaredCall = .ok (some fix) ∧
        fix.conflicts = [] ∧ Edit.applyAll "f(g(1), h)" fix.edits = .ok "f(h, h)" ∧
        ∀ texts : List String, texts.Perm (declaredCall.argumentTexts "f(g(1), h)") →
          declaredCall.rewritten "f(g(1), h)"
            ((copyTo [.name "b"]).frontText "f(g(1), h)" declaredCall ::
              (copyTo [.name "b"]).nameText "f(g(1), h)" declaredCall :: texts) ≠ "f(h, h)" := by
  refine ⟨rfl, rfl, by decide +kernel,
    ⟨declaredCall.span, [⟨⟨2, 6, by decide⟩, "h"⟩], []⟩, by rfl, rfl, by rfl, ?_⟩
  intro texts hperm
  have htexts : declaredCall.argumentTexts "f(g(1), h)" = ["g(1)", "h"] := by decide +kernel
  have hboth : texts ∈ [["g(1)", "h"], ["h", "g(1)"]] :=
    List.mem_permutations'.2 (htexts ▸ hperm)
  rcases List.mem_cons.1 hboth with rfl | hsecond
  · decide +kernel
  · obtain rfl := List.mem_singleton.1 hsecond
    decide +kernel

end Rule

end CallRefactor
