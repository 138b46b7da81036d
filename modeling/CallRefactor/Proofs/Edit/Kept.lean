import CallRefactor.Proofs.Edit.Compose
import CallRefactor.Proofs.Span.Stable
import CallRefactor.Proofs.Success

/-!
# What composing keeps

The cursor of `Edit.composeFrom` only moves forward, to the stop of the edit it has passed. So a run
ends without a fault exactly when no edit leaves the expression and none starts before an earlier
one in the sorted list stops: the cursor is the last stop, and the stops before it are smaller.
There is a third reason for composing to fault, which lies in the expression alone: there may be no
room for as much text as it takes up.

What such a run copies are the gaps around the sorted edits, and it writes one replacement behind
each gap but the last. Joined, the gaps are the characters of the expression that no edit covers.

Main statement: `compose_weaves`.
-/

namespace CallRefactor

/-- A span covers the offsets from its start up to the one before its stop. -/
def Span.Covers (s : Span) (offset : Nat) : Prop := s.start ≤ offset ∧ offset < s.stop

instance (s : Span) (offset : Nat) : Decidable (s.Covers offset) :=
  inferInstanceAs (Decidable (_ ∧ _))

namespace Edit

variable {edits : List Edit}

/-! ## When composing succeeds -/

section Success

variable {text : String} {s : Span} {cursor : Nat}

/-- The cursor gets through edits that lie inside the expression, none of them before the cursor and
none before the stop of an earlier one, and through no others. -/
theorem exists_composeFrom_iff :
    (∃ out, composeFrom text s cursor edits = .ok out) ↔
      (∀ e ∈ edits, s.Contains e.span) ∧ (∀ e ∈ edits, cursor ≤ e.span.start) ∧
        edits.Pairwise fun a b => a.span.stop ≤ b.span.start := by
  constructor
  · rintro ⟨out, h⟩
    induction edits generalizing cursor out with
    | nil => exact ⟨nofun, nofun, .nil⟩
    | cons e rest ih =>
      unfold composeFrom at h
      split at h
      · cases h
      · next hin =>
        split at h
        · cases h
        · next hcursor =>
          obtain ⟨tail, htail, -⟩ := map_eq_ok_iff.1 h
          obtain ⟨hins, hnext, hord⟩ := ih tail htail
          have hle := e.span.start_le_stop
          refine ⟨List.forall_mem_cons.2 ⟨not_not.1 hin, hins⟩,
            List.forall_mem_cons.2 ⟨by omega, fun x hx => ?_⟩, List.pairwise_cons.2 ⟨hnext, hord⟩⟩
          -- what the cursor has not passed behind `e` it had not passed before `e` either
          have hx' := hnext x hx
          omega
  · rintro ⟨hin, hfrom, hord⟩
    exact ⟨_, composeFrom_eq_ok hin hfrom hord⟩

theorem compose_of_capacity_lt (hne : edits ≠ []) (h : capacity text < s.length) :
    compose text s edits = .error .capacity := by
  unfold compose
  rw [if_neg (by simpa using hne), if_pos h]

theorem exists_compose_iff (hne : edits ≠ []) :
    (∃ out, compose text s edits = .ok out) ↔
      s.length ≤ capacity text ∧ (∀ e ∈ edits, s.Contains e.span) ∧
        (sort edits).Pairwise fun a b => a.span.stop ≤ b.span.start := by
  rcases Nat.lt_or_ge (capacity text) s.length with hroom | hroom
  · rw [compose_of_capacity_lt hne hroom]
    exact ⟨nofun, fun h => absurd h.1 (Nat.not_le.2 hroom)⟩
  have hrun : (∃ out, compose text s edits = .ok out) ↔
      ∃ out, composeFrom text s s.start (sort edits) = .ok out := by
    unfold compose
    rw [if_neg (by simpa using hne), if_neg (Nat.not_lt.2 hroom)]
    simp only [map_eq_ok_iff]
    constructor
    · rintro ⟨_, out, h, -⟩
      exact ⟨out, h⟩
    · rintro ⟨out, h⟩
      exact ⟨_, out, h, rfl⟩
  rw [hrun, exists_composeFrom_iff, and_iff_right hroom]
  simp only [mem_sort]
  constructor
  · rintro ⟨hin, -, hord⟩
    exact ⟨hin, hord⟩
  · rintro ⟨hin, hord⟩
    exact ⟨hin, fun e he => (hin e he).1, hord⟩

/-- Composing faults exactly when there is no room, when an edit leaves the expression or when,
sorted, one starts before an earlier one stops. -/
theorem exists_compose_eq_error_iff (hne : edits ≠ []) :
    (∃ fault, compose text s edits = .error fault) ↔
      capacity text < s.length ∨ (∃ e ∈ edits, ¬ s.Contains e.span) ∨
        ∃ x y, [x, y].Sublist (sort edits) ∧ y.span.start < x.span.stop := by
  rw [exists_eq_error_iff, exists_compose_iff hne, not_and_or, not_and_or,
    List.pairwise_iff_forall_sublist]
  simp only [not_forall, Nat.not_le, exists_prop]

end Success

/-! ## Gaps and replacements -/

section Gaps

variable {text : List Char} {a b : Nat}

/-- The parts of a text around edits: before the first one, between each and the next, and behind
the last. -/
def gaps (text : List Char) (start : Nat) (edits : List Edit) (stop : Nat) : List (List Char) :=
  match edits with
  | [] => [Text.between start stop text]
  | edit :: rest => Text.between start edit.span.start text :: gaps text edit.span.stop rest stop

/-- Joins parts of a text, with a word behind each of them as long as there are words. -/
def weave : List (List Char) → List (List Char) → List Char
  | part :: parts, word :: words => part ++ (word ++ weave parts words)
  | parts, [] => parts.flatten
  | [], words => words.flatten

theorem splice_eq_weave (text : List Char) (a : Nat) (edits : List Edit) (b : Nat) :
    splice text a edits b
      = weave (gaps text a edits b) (edits.map fun e => e.replacement.toList) := by
  induction edits generalizing a with
  | nil => exact (List.append_nil _).symm
  | cons e rest ih =>
    simp only [splice, gaps, List.map_cons, weave]
    rw [ih]

/-! ## What no edit covers -/

/-- The characters of a text that no edit covers. The first one stands at `offset`. -/
def uncovered (edits : List Edit) (offset : Nat) : List Char → List Char
  | [] => []
  | c :: cs =>
    if ∃ e ∈ edits, e.span.Covers offset then uncovered edits (offset + c.utf8Size) cs
    else c :: uncovered edits (offset + c.utf8Size) cs

theorem uncovered_append (edits : List Edit) (offset : Nat) (p r : List Char) :
    uncovered edits offset (p ++ r)
      = uncovered edits offset p ++ uncovered edits (offset + Text.byteLength p) r := by
  induction p generalizing offset with
  | nil => rfl
  | cons c p ih =>
    simp only [List.cons_append, uncovered, Text.byteLength_cons]
    rw [ih, Nat.add_assoc]
    split <;> rfl

/-- Only what covers an offset behind the first one matters. -/
theorem uncovered_congr {others : List Edit} {offset : Nat} (cs : List Char)
    (h : ∀ n, offset ≤ n → ((∃ e ∈ edits, e.span.Covers n) ↔ ∃ e ∈ others, e.span.Covers n)) :
    uncovered edits offset cs = uncovered others offset cs := by
  induction cs generalizing offset with
  | nil => rfl
  | cons c cs ih =>
    simp only [uncovered]
    rw [ih fun n hn => h n (by omega)]
    simp only [h offset (Nat.le_refl _)]

/-- An edit that stops before a part covers nothing of it. -/
theorem uncovered_cons_of_stop_le {e : Edit} {offset : Nat} (h : e.span.stop ≤ offset)
    (cs : List Char) : uncovered (e :: edits) offset cs = uncovered edits offset cs := by
  refine uncovered_congr cs fun n hn => ?_
  have hpast : ¬ e.span.Covers n := fun hcovers => absurd hcovers.2 (by omega)
  simp [hpast]

/-- A part that ends before every edit is left whole. -/
theorem uncovered_eq_self {offset : Nat} {cs : List Char}
    (h : ∀ e ∈ edits, offset + Text.byteLength cs ≤ e.span.start) :
    uncovered edits offset cs = cs := by
  induction cs generalizing offset with
  | nil => rfl
  | cons c cs ih =>
    have hc := c.utf8Size_pos
    simp only [Text.byteLength_cons] at h
    rw [uncovered, if_neg, ih]
    · intro e he
      have hfrom := h e he
      omega
    · rintro ⟨e, he, hle, -⟩
      have hfrom := h e he
      omega

/-- Nothing is left of a part inside an edit. -/
theorem uncovered_eq_nil {e : Edit} {offset : Nat} {cs : List Char} (he : e ∈ edits)
    (hstart : e.span.start ≤ offset) (hstop : offset + Text.byteLength cs ≤ e.span.stop) :
    uncovered edits offset cs = [] := by
  induction cs generalizing offset with
  | nil => rfl
  | cons c cs ih =>
    have hc := c.utf8Size_pos
    simp only [Text.byteLength_cons] at hstop
    rw [uncovered, if_pos ⟨e, he, hstart, by omega⟩]
    exact ih (by omega) (by omega)

/-- The gaps around edits are together what no edit covers. -/
theorem flatten_gaps (h : Within text a edits b) :
    (gaps text a edits b).flatten = uncovered edits a (Text.between a b text) := by
  induction edits generalizing a with
  | nil =>
    rw [uncovered_eq_self fun _ he => absurd he List.not_mem_nil]
    exact List.append_nil _
  | cons e rest ih =>
    obtain ⟨hstart, hstop⟩ := h.fits e List.mem_cons_self
    have hle := e.span.start_le_stop
    have ha := h.from_start e List.mem_cons_self
    have hb := h.to_stop e List.mem_cons_self
    have hfront := Text.byteLength_between h.start hstart ha
    have hmiddle := Text.byteLength_between hstart hstop hle
    have hkept : uncovered (e :: rest) a (Text.between a e.span.start text)
        = Text.between a e.span.start text := by
      refine uncovered_eq_self (List.forall_mem_cons.2 ⟨by omega, fun x hx => ?_⟩)
      have hx' := h.tail.from_start x hx
      omega
    have hlost : uncovered (e :: rest) e.span.start (Text.between e.span.start e.span.stop text)
        = [] :=
      uncovered_eq_nil List.mem_cons_self (Nat.le_refl _) (by omega)
    have hfrontStop : a + Text.byteLength (Text.between a e.span.start text) = e.span.start := by
      omega
    have hmiddleStop : e.span.start
        + Text.byteLength (Text.between e.span.start e.span.stop text) = e.span.stop := by
      omega
    calc (gaps text a (e :: rest) b).flatten
      _ = Text.between a e.span.start text
          ++ uncovered rest e.span.stop (Text.between e.span.stop b text) := by
        rw [← ih h.tail]
        rfl
      _ = uncovered (e :: rest) a (Text.between a e.span.start text
          ++ (Text.between e.span.start e.span.stop text ++ Text.between e.span.stop b text)) := by
        rw [uncovered_append, hfrontStop, uncovered_append, hmiddleStop, hkept, hlost,
          uncovered_cons_of_stop_le (Nat.le_refl _)]
        rfl
      _ = uncovered (e :: rest) a (Text.between a b text) := by
        rw [Text.between_append_between hstart hstop h.stop hle hb,
          Text.between_append_between h.start hstart h.stop ha (by omega)]

end Gaps

/-! ## Composing -/

/-- **Composing edits keeps exactly what they do not cover.** It gives nothing for no edits. For
others it faults exactly when there is no room for as much as the expression takes up, when one of
them leaves the expression or when, sorted stably, one starts before an earlier one stops. Otherwise
it writes the replacements into the gaps around the sorted edits, and the gaps together are the
characters of the expression that no edit covers. -/
theorem compose_weaves (text : String) (s : Span) (edits : List Edit) :
    compose text s [] = .ok none ∧
    (edits ≠ [] → ∃ sorted, Span.IsStableSort Edit.span edits sorted ∧
      ((∃ fault, compose text s edits = .error fault) ↔
        capacity text < s.length ∨ (∃ e ∈ edits, ¬ s.Contains e.span) ∨
          ∃ x y, [x, y].Sublist sorted ∧ y.span.start < x.span.stop) ∧
      ((¬ ∃ fault, compose text s edits = .error fault) → s.Fits text.toList →
        (∀ e ∈ edits, e.span.Fits text.toList) →
        ∃ out, compose text s edits = .ok (some out) ∧
          out.toList = weave (gaps text.toList s.start sorted s.stop)
            (sorted.map fun e => e.replacement.toList) ∧
          (gaps text.toList s.start sorted s.stop).flatten
            = uncovered edits s.start (Text.between s.start s.stop text.toList))) := by
  refine ⟨rfl, fun hne => ⟨sort edits, Span.isStableSort_sortOn _ _,
    exists_compose_eq_error_iff hne, fun hok hs hfits => ?_⟩⟩
  rw [exists_eq_error_iff, not_not, exists_compose_iff hne] at hok
  obtain ⟨hroom, hin, hord⟩ := hok
  have hin' : ∀ e ∈ sort edits, s.Contains e.span := fun e he => hin e (mem_sort.1 he)
  have hwithin : Within text.toList s.start (sort edits) s.stop :=
    ⟨hs.1, hs.2, s.start_le_stop, fun e he => hfits e (mem_sort.1 he), fun e he => (hin' e he).1,
      fun e he => (hin' e he).2, hord⟩
  refine ⟨String.ofList (splice text.toList s.start (sort edits) s.stop), ?_, ?_, ?_⟩
  · unfold compose
    rw [if_neg (by simpa using hne), if_neg (Nat.not_lt.2 hroom),
      composeFrom_eq_ok hin' (fun e he => (hin' e he).1) hord]
    rfl
  · rw [String.toList_ofList, splice_eq_weave]
  · rw [flatten_gaps hwithin]
    exact uncovered_congr _ fun n _ => by simp only [mem_sort]

/-- Two insertions at one offset in front of an edit that starts there, and one where the
expression starts, behind a character of two bytes that none of them covers. -/
theorem compose_weaves_touching :
    compose "xéy-z" ⟨1, 4, by decide⟩
        [⟨⟨3, 4, by decide⟩, "Y"⟩, insertion 3 "a", insertion 3 "b", insertion 1 "<"]
      = .ok (some "<éabY") ∧
    ∃ sorted, Span.IsStableSort Edit.span
        [⟨⟨3, 4, by decide⟩, "Y"⟩, insertion 3 "a", insertion 3 "b", insertion 1 "<"] sorted ∧
      (gaps "xéy-z".toList 1 sorted 4).flatten = ['é'] := by
  obtain ⟨-, h⟩ := compose_weaves "xéy-z" ⟨1, 4, by decide⟩
    [⟨⟨3, 4, by decide⟩, "Y"⟩, insertion 3 "a", insertion 3 "b", insertion 1 "<"]
  obtain ⟨sorted, hsorted, -, hout⟩ := h (by decide)
  obtain ⟨out, -, -, hkept⟩ := hout (by rintro ⟨_, ⟨⟩⟩) (by decide) (by decide)
  exact ⟨by rfl, sorted, hsorted, hkept⟩

/-- One insertion, which neither leaves the expression nor overlaps another edit, has no room in an
expression that is longer than a text can be. -/
theorem compose_oversized :
    compose "" ⟨0, 0xffffffffffffffff, by decide⟩ [insertion 0 "x"] = .error .capacity ∧
      (∀ e ∈ [insertion 0 "x"], Span.Contains ⟨0, 0xffffffffffffffff, by decide⟩ e.span) ∧
      ∀ sorted, Span.IsStableSort Edit.span [insertion 0 "x"] sorted →
        ¬ ∃ x y, [x, y].Sublist sorted ∧ y.span.start < x.span.stop := by
  refine ⟨by decide +kernel, by decide, ?_⟩
  rintro sorted hsorted ⟨x, y, hsub, _⟩
  have htwo := hsub.length_le
  rw [hsorted.perm.length_eq] at htwo
  exact Nat.not_succ_le_self 1 htwo

end Edit

end CallRefactor
