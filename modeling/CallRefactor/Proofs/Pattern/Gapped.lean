import CallRefactor.Pattern.Glob
import Mathlib.Data.List.Forall2

/-!
# Aligning a pattern with a sequence

An alignment of a pattern with gaps with a sequence is built up item by item. Seen as a whole, a
pattern of two parts is aligned part by part, items without gaps are aligned one by one, and a
pattern with gaps is aligned by giving every item a place in the sequence. The places ascend, they
are neighbours where no gap stands between, and all that is passed over may be skipped.

Main statements: `aligns_append_iff`, `aligns_map_one_iff`, `aligns_around_gap_iff`, a pattern with
one gap fixes what stands at both ends, and `aligns_ofSteps_iff`, an alignment is a placement.
-/

namespace CallRefactor.Pattern.Gapped

/-- An alignment of a pattern with a sequence. -/
inductive Aligns {α β : Type} (test : β → α → Bool) (skips : α → Bool) :
    List (Item β) → List α → Prop where
  /-- The empty pattern fits the empty sequence. -/
  | nil : Aligns test skips [] []
  /-- An item takes the element that passes its test. -/
  | one {b : β} {a : α} {p : List (Item β)} {s : List α} (h : test b a = true)
      (rest : Aligns test skips p s) : Aligns test skips (.one b :: p) (a :: s)
  /-- A gap comes to its end. -/
  | close {p : List (Item β)} {s : List α} (rest : Aligns test skips p s) :
      Aligns test skips (.gap :: p) s
  /-- A gap skips an element. -/
  | skip {a : α} {p : List (Item β)} {s : List α} (h : skips a = true)
      (rest : Aligns test skips (.gap :: p) s) : Aligns test skips (.gap :: p) (a :: s)

variable {α β : Type} {test : β → α → Bool} {skips : α → Bool}

/-! ## Parts of a pattern -/

theorem Aligns.append {p q : List (Item β)} {s t : List α} (hp : Aligns test skips p s)
    (hq : Aligns test skips q t) : Aligns test skips (p ++ q) (s ++ t) := by
  induction hp with
  | nil => exact hq
  | one h _ ih => exact .one h ih
  | close _ ih => exact .close ih
  | skip h _ ih => exact .skip h ih

theorem aligns_append_iff {p q : List (Item β)} {s : List α} :
    Aligns test skips (p ++ q) s ↔
      ∃ front back, s = front ++ back ∧ Aligns test skips p front ∧ Aligns test skips q back := by
  constructor
  · intro h
    -- by induction on the alignment, for every way to cut its pattern in two
    generalize hpq : p ++ q = pattern at h
    induction h generalizing p with
    | nil =>
      obtain ⟨rfl, rfl⟩ := List.append_eq_nil_iff.1 hpq
      exact ⟨[], [], rfl, .nil, .nil⟩
    | @one b a rest s h hrest ih =>
      rcases List.append_eq_cons_iff.1 hpq with ⟨rfl, rfl⟩ | ⟨p', rfl, rfl⟩
      · exact ⟨[], a :: s, rfl, .nil, .one h hrest⟩
      · obtain ⟨front, back, rfl, hp, hq⟩ := ih rfl
        exact ⟨a :: front, back, rfl, .one h hp, hq⟩
    | @close rest s hrest ih =>
      rcases List.append_eq_cons_iff.1 hpq with ⟨rfl, rfl⟩ | ⟨p', rfl, rfl⟩
      · exact ⟨[], s, rfl, .nil, .close hrest⟩
      · obtain ⟨front, back, rfl, hp, hq⟩ := ih rfl
        exact ⟨front, back, rfl, .close hp, hq⟩
    | @skip a rest s h hrest ih =>
      rcases List.append_eq_cons_iff.1 hpq with ⟨rfl, rfl⟩ | ⟨p', rfl, rfl⟩
      · exact ⟨[], a :: s, rfl, .nil, .skip h hrest⟩
      · -- the gap stays in front of what is left of the sequence
        obtain ⟨front, back, rfl, hp, hq⟩ := ih (p := .gap :: p') rfl
        exact ⟨a :: front, back, rfl, .skip h hp, hq⟩
  · rintro ⟨front, back, rfl, hp, hq⟩
    exact hp.append hq

theorem aligns_one_iff {b : β} {p : List (Item β)} {s : List α} :
    Aligns test skips (.one b :: p) s ↔
      ∃ a rest, s = a :: rest ∧ test b a = true ∧ Aligns test skips p rest := by
  constructor
  · intro h
    cases h with
    | one h rest => exact ⟨_, _, rfl, h, rest⟩
  · rintro ⟨a, rest, rfl, h, hrest⟩
    exact .one h hrest

/-- A gap stands for elements that may be skipped, and the rest follows behind them. -/
theorem aligns_gap_iff {p : List (Item β)} {s : List α} :
    Aligns test skips (.gap :: p) s ↔
      ∃ passed rest, s = passed ++ rest ∧ (∀ a ∈ passed, skips a = true) ∧
        Aligns test skips p rest := by
  constructor
  · intro h
    generalize hp : Item.gap :: p = pattern at h
    induction h with
    | nil => cases hp
    | one => cases hp
    | close hrest =>
      cases hp
      exact ⟨[], _, rfl, nofun, hrest⟩
    | @skip a _ s h _ ih =>
      cases hp
      obtain ⟨passed, rest, rfl, hskips, hrest⟩ := ih rfl
      exact ⟨a :: passed, rest, rfl, List.forall_mem_cons.2 ⟨h, hskips⟩, hrest⟩
  · rintro ⟨passed, rest, rfl, hskips, hrest⟩
    induction passed with
    | nil => exact .close hrest
    | cons a passed ih =>
      obtain ⟨ha, hpassed⟩ := List.forall_mem_cons.1 hskips
      exact .skip ha (ih hpassed)

theorem aligns_map_one_iff {bs : List β} {s : List α} :
    Aligns test skips (bs.map .one) s ↔ List.Forall₂ (fun b a => test b a = true) bs s := by
  induction bs generalizing s with
  | nil =>
    constructor
    · intro h
      cases h
      exact .nil
    · intro h
      cases h
      exact .nil
  | cons b bs ih =>
    rw [List.map_cons, aligns_one_iff]
    constructor
    · rintro ⟨a, rest, rfl, h, hrest⟩
      exact .cons h (ih.1 hrest)
    · intro h
      cases h with
      | cons h hrest => exact ⟨_, _, rfl, h, ih.2 hrest⟩

/-- What the items of a pattern test for. A gap tests for nothing. -/
def tests : List (Item β) → List β
  | [] => []
  | .one b :: p => b :: tests p
  | .gap :: p => tests p

theorem mem_tests_iff {b : β} {p : List (Item β)} : b ∈ tests p ↔ .one b ∈ p := by
  induction p with
  | nil => exact ⟨nofun, nofun⟩
  | cons item p ih => cases item <;> simp [tests, ih]

/-- Nothing but gaps fits the empty sequence. -/
theorem aligns_nil_iff {p : List (Item β)} : Aligns test skips p [] ↔ tests p = [] := by
  induction p with
  | nil => exact ⟨fun _ => rfl, fun _ => .nil⟩
  | cons item p ih =>
    cases item with
    | one b => exact ⟨nofun, nofun⟩
    | gap =>
      rw [tests, ← ih]
      constructor
      · intro h
        cases h with
        | close rest => exact rest
      · exact .close

/-- A pattern with one gap fixes what stands at both ends. -/
theorem aligns_around_gap_iff {bs cs : List β} {s : List α} :
    Aligns test skips (bs.map .one ++ .gap :: cs.map .one) s ↔
      ∃ front passed back, s = front ++ (passed ++ back) ∧
        List.Forall₂ (fun b a => test b a = true) bs front ∧ (∀ a ∈ passed, skips a = true) ∧
        List.Forall₂ (fun b a => test b a = true) cs back := by
  rw [aligns_append_iff]
  constructor
  · rintro ⟨front, s', rfl, hfront, hrest⟩
    obtain ⟨passed, back, rfl, hskips, hback⟩ := aligns_gap_iff.1 hrest
    exact ⟨front, passed, back, rfl, aligns_map_one_iff.1 hfront, hskips,
      aligns_map_one_iff.1 hback⟩
  · rintro ⟨front, passed, back, rfl, hfront, hskips, hback⟩
    exact ⟨front, passed ++ back, rfl, aligns_map_one_iff.2 hfront,
      aligns_gap_iff.2 ⟨passed, back, rfl, hskips, aligns_map_one_iff.2 hback⟩⟩

/-! ## Places -/

/-- A step of a pattern: an item, and whether a gap stands in front of it. -/
structure Step (β : Type) where
  /-- A gap stands in front of the item. -/
  wide : Bool
  /-- What takes an element of the sequence. -/
  item : β

/-- The items of a step. -/
def Step.items (step : Step β) : List (Item β) :=
  if step.wide then [.gap, .one step.item] else [.one step.item]

/-- A step with another item. -/
def Step.map {γ : Type} (f : γ → β) (step : Step γ) : Step β := ⟨step.wide, f step.item⟩

/-- The pattern of several steps. -/
def ofSteps (steps : List (Step β)) : List (Item β) := steps.flatMap Step.items

theorem tests_append (p q : List (Item β)) : tests (p ++ q) = tests p ++ tests q := by
  induction p with
  | nil => rfl
  | cons item p ih => cases item <;> simp [tests, ih]

theorem tests_ofSteps (steps : List (Step β)) : tests (ofSteps steps) = steps.map Step.item := by
  induction steps with
  | nil => rfl
  | cons step steps ih =>
    show tests (step.items ++ ofSteps steps) = _
    rw [tests_append, ih]
    obtain ⟨wide, item⟩ := step
    cases wide <;> rfl

/-- The item of the last step stands at the end of the pattern. -/
theorem exists_getLast?_ofSteps {steps : List (Step β)} (hne : steps ≠ []) :
    ∃ last, (ofSteps steps).getLast? = some (.one last) := by
  obtain ⟨front, step, rfl⟩ := (List.eq_nil_or_concat' steps).resolve_left hne
  refine ⟨step.item, ?_⟩
  unfold ofSteps
  rw [List.flatMap_append, List.flatMap_singleton]
  obtain ⟨wide, item⟩ := step
  cases wide <;> simp [Step.items]

/-- An assignment of the steps of a pattern to elements of a sequence, where an item `b` may take an
element `a` with `Takes b a` and an element with `Passed a` may be passed over. -/
structure Placement (Takes : β → α → Prop) (Passed : α → Prop) (steps : List (Step β))
    (s : List α) (places : List Nat) : Prop where
  /-- Every step has a place, and takes the element there. -/
  takes : List.Forall₂ (fun step place => ∃ a, s[place]? = some a ∧ Takes step.item a) steps places
  /-- The order of the steps is kept. -/
  ascending : places.Pairwise (· < ·)
  /-- Without a gap in front the first step takes the first element. -/
  first : ∀ step, steps.head? = some step → step.wide = false → places.head? = some 0
  /-- Without a gap between them two steps take neighbours. -/
  adjacent : ∀ i step, steps[i + 1]? = some step → step.wide = false →
    places[i + 1]? = places[i]?.map (· + 1)
  /-- The last step takes the last element. -/
  last : places.getLast?.map (· + 1) = some s.length
  /-- Every other element may be passed over. -/
  passed : ∀ i a, s[i]? = some a → i ∉ places → Passed a

/-- Items that are read as others have the places of those. -/
theorem placement_map_iff {γ : Type} {f : γ → β} {Takes : β → α → Prop} {Passed : α → Prop}
    {steps : List (Step γ)} {s : List α} {places : List Nat} :
    Placement Takes Passed (steps.map (Step.map f)) s places ↔
      Placement (fun c a => Takes (f c) a) Passed steps s places := by
  have htakes : List.Forall₂ (fun step place => ∃ a, s[place]? = some a ∧ Takes step.item a)
      (steps.map (Step.map f)) places ↔
      List.Forall₂ (fun step place => ∃ a, s[place]? = some a ∧ Takes (f step.item) a) steps
        places :=
    List.forall₂_map_left_iff
  constructor
  · intro h
    refine ⟨htakes.1 h.takes, h.ascending, fun step hstep hwide => ?_,
      fun i step hstep hwide => ?_, h.last, h.passed⟩
    · exact h.first (step.map f) (by rw [List.head?_map, hstep]; rfl) hwide
    · exact h.adjacent i (step.map f) (by rw [List.getElem?_map, hstep]; rfl) hwide
  · intro h
    refine ⟨htakes.2 h.takes, h.ascending, fun step hstep hwide => ?_,
      fun i step hstep hwide => ?_, h.last, h.passed⟩
    · rw [List.head?_map] at hstep
      obtain ⟨step, hhead, rfl⟩ := Option.map_eq_some_iff.1 hstep
      exact h.first step hhead hwide
    · rw [List.getElem?_map] at hstep
      obtain ⟨step, hget, rfl⟩ := Option.map_eq_some_iff.1 hstep
      exact h.adjacent i step hget hwide

section Follows

variable {Takes : β → α → Prop} {Passed : α → Prop} {s : List α} {steps : List (Step β)}
  {places : List Nat} {start : Nat}

/-- The steps take elements from `start` on, one after the other, up to the end of the sequence. -/
inductive Follows (Takes : β → α → Prop) (Passed : α → Prop) (s : List α) :
    Nat → List (Step β) → List Nat → Prop where
  /-- Nothing is left. -/
  | nil : Follows Takes Passed s s.length [] []
  /-- A step passes over some elements and takes the next one. -/
  | cons {start place : Nat} {step : Step β} {steps : List (Step β)} {places : List Nat} {a : α}
    (hle : start ≤ place) (hnarrow : step.wide = false → place = start)
    (hpassed : ∀ i a, s[i]? = some a → start ≤ i → i < place → Passed a)
    (hget : s[place]? = some a) (htakes : Takes step.item a)
    (hrest : Follows Takes Passed s (place + 1) steps places) :
    Follows Takes Passed s start (step :: steps) (place :: places)

/-- A step passes over elements only if a gap stands in front of it, and then takes one. -/
theorem aligns_items_iff {step : Step β} {p : List (Item β)} {t : List α} :
    Aligns test skips (step.items ++ p) t ↔
      ∃ front a rest, t = front ++ a :: rest ∧ (step.wide = false → front = []) ∧
        (∀ x ∈ front, skips x = true) ∧ test step.item a = true ∧ Aligns test skips p rest := by
  unfold Step.items
  cases step.wide with
  | false =>
    show Aligns test skips (.one step.item :: p) t ↔ _
    rw [aligns_one_iff]
    constructor
    · rintro ⟨a, rest, rfl, h, hrest⟩
      exact ⟨[], a, rest, rfl, fun _ => rfl, nofun, h, hrest⟩
    · rintro ⟨front, a, rest, rfl, hfront, _, h, hrest⟩
      obtain rfl := hfront rfl
      exact ⟨a, rest, rfl, h, hrest⟩
  | true =>
    show Aligns test skips (.gap :: .one step.item :: p) t ↔ _
    rw [aligns_gap_iff]
    constructor
    · rintro ⟨front, tail, rfl, hskips, htail⟩
      obtain ⟨a, rest, rfl, h, hrest⟩ := aligns_one_iff.1 htail
      exact ⟨front, a, rest, rfl, nofun, hskips, h, hrest⟩
    · rintro ⟨front, a, rest, rfl, _, hskips, h, hrest⟩
      exact ⟨front, a :: rest, rfl, hskips, aligns_one_iff.2 ⟨a, rest, rfl, h, hrest⟩⟩

theorem getElem?_of_drop_eq {front rest : List α} {a : α} (h : s.drop start = front ++ a :: rest) :
    s[start + front.length]? = some a ∧ s.drop (start + front.length + 1) = rest ∧
      ∀ i x, s[i]? = some x → start ≤ i → i < start + front.length → x ∈ front := by
  refine ⟨?_, ?_, fun i x hx hfrom hto => ?_⟩
  · rw [← List.getElem?_drop, h]
    simp
  · rw [Nat.add_assoc, ← List.drop_drop, h]
    simp
  · have hi : start + (i - start) = i := by omega
    rw [← hi, ← List.getElem?_drop, h, List.getElem?_append_left (by omega)] at hx
    exact List.mem_of_getElem? hx

/-- What is left of a sequence has the elements up to a place in front of the element there. -/
theorem exists_drop_eq {place : Nat} {a : α} (hle : start ≤ place) (hget : s[place]? = some a) :
    ∃ front, s.drop start = front ++ a :: s.drop (place + 1) ∧ front.length = place - start ∧
      ∀ x ∈ front, ∃ i, s[i]? = some x ∧ start ≤ i ∧ i < place := by
  obtain ⟨hlt, rfl⟩ := List.getElem?_eq_some_iff.1 hget
  refine ⟨(s.drop start).take (place - start), ?_, ?_, fun x hx => ?_⟩
  · have hback : (s.drop start).drop (place - start) = s.drop place := by
      rw [List.drop_drop, Nat.add_sub_cancel' hle]
    rw [List.getElem_cons_drop, ← hback, List.take_append_drop]
  · rw [List.length_take, List.length_drop]
    omega
  · obtain ⟨i, hi, rfl⟩ := List.mem_take_iff_getElem.1 hx
    rw [List.getElem_drop]
    exact ⟨start + i, List.getElem?_eq_getElem _, by omega, by omega⟩

/-- A pattern is aligned with what is left of a sequence by letting its steps follow each other. -/
theorem aligns_drop_iff (hstart : start ≤ s.length) :
    Aligns test skips (ofSteps steps) (s.drop start) ↔
      ∃ places, Follows (fun b a => test b a = true) (fun a => skips a = true) s start steps
        places := by
  -- by induction on the steps, for every start at once
  induction steps generalizing start with
  | nil =>
    constructor
    · intro h
      generalize ht : s.drop start = t at h
      cases h
      obtain rfl := Nat.le_antisymm hstart (List.drop_eq_nil_iff.1 ht)
      exact ⟨[], .nil⟩
    · rintro ⟨places, h⟩
      cases h
      rw [List.drop_length]
      exact .nil
  | cons step steps ih =>
    show Aligns test skips (step.items ++ ofSteps steps) (s.drop start) ↔ _
    rw [aligns_items_iff]
    constructor
    · rintro ⟨front, a, rest, hdrop, hwide, hskips, htest, hrest⟩
      obtain ⟨hget, htail, hfront⟩ := getElem?_of_drop_eq hdrop
      rw [← htail] at hrest
      obtain ⟨places, hplaces⟩ := (ih (List.getElem?_eq_some_iff.1 hget).1).1 hrest
      refine ⟨_, .cons (Nat.le_add_right _ _) ?_ ?_ hget htest hplaces⟩
      · intro hnarrow
        rw [hwide hnarrow]
        rfl
      · exact fun i x hx hfrom hto => hskips x (hfront i x hx hfrom hto)
    · rintro ⟨_, h⟩
      cases h with
      | @cons _ place _ _ places a hle hnarrow hpassed hget htakes hrest =>
        obtain ⟨front, hdrop, hlength, hfront⟩ := exists_drop_eq hle hget
        refine ⟨front, a, s.drop (place + 1), hdrop, ?_, ?_, htakes,
          (ih (List.getElem?_eq_some_iff.1 hget).1).2 ⟨places, hrest⟩⟩
        · intro hwide
          rw [hnarrow hwide, Nat.sub_self] at hlength
          exact List.length_eq_zero_iff.1 hlength
        · intro x hx
          obtain ⟨i, hi, hfrom, hto⟩ := hfront x hx
          exact hpassed i x hi hfrom hto

theorem Follows.takes (h : Follows Takes Passed s start steps places) :
    List.Forall₂ (fun step place => ∃ a, s[place]? = some a ∧ Takes step.item a) steps places := by
  induction h with
  | nil => exact .nil
  | cons _ _ _ hget htakes _ ih => exact .cons ⟨_, hget, htakes⟩ ih

theorem Follows.start_le (h : Follows Takes Passed s start steps places) :
    ∀ place ∈ places, start ≤ place := by
  induction h with
  | nil => exact nofun
  | cons hle _ _ _ _ _ ih =>
    refine List.forall_mem_cons.2 ⟨hle, fun place hplace => ?_⟩
    have hlt := ih place hplace
    omega

theorem Follows.ascending (h : Follows Takes Passed s start steps places) :
    places.Pairwise (· < ·) := by
  induction h with
  | nil => exact .nil
  | cons _ _ _ _ _ hrest ih => exact List.pairwise_cons.2 ⟨hrest.start_le, ih⟩

theorem Follows.first (h : Follows Takes Passed s start steps places) {step : Step β}
    (hstep : steps.head? = some step) (hwide : step.wide = false) : places.head? = some start := by
  cases h with
  | nil => cases hstep
  | cons _ hnarrow =>
    obtain rfl := Option.some.inj hstep
    rw [hnarrow hwide, List.head?_cons]

theorem Follows.adjacent (h : Follows Takes Passed s start steps places) {i : Nat} {step : Step β}
    (hstep : steps[i + 1]? = some step) (hwide : step.wide = false) :
    places[i + 1]? = places[i]?.map (· + 1) := by
  induction h generalizing i with
  | nil => cases hstep
  | @cons _ place _ steps places _ _ _ _ _ _ hrest ih =>
    rw [List.getElem?_cons_succ] at hstep ⊢
    cases i with
    | zero =>
      rw [← List.head?_eq_getElem?] at hstep ⊢
      rw [hrest.first hstep hwide]
      rfl
    | succ i =>
      rw [List.getElem?_cons_succ]
      exact ih hstep

theorem getD_getLast?_cons (start place : Nat) (places : List Nat) :
    ((place :: places).getLast?.map (· + 1)).getD start =
      (places.getLast?.map (· + 1)).getD (place + 1) := by
  rw [List.getLast?_cons]
  cases places.getLast? <;> rfl

theorem Follows.last (h : Follows Takes Passed s start steps places) :
    (places.getLast?.map (· + 1)).getD start = s.length := by
  induction h with
  | nil => rfl
  | cons _ _ _ _ _ _ ih => exact (getD_getLast?_cons _ _ _).trans ih

theorem Follows.passed (h : Follows Takes Passed s start steps places) :
    ∀ i a, s[i]? = some a → start ≤ i → i ∉ places → Passed a := by
  induction h with
  | nil =>
    intro i a hget hle _
    have hlt := (List.getElem?_eq_some_iff.1 hget).1
    omega
  | @cons _ place _ _ _ _ _ _ hpassed _ _ _ ih =>
    intro i a hget hle hnot
    have hne : i ≠ place := List.ne_of_not_mem_cons hnot
    rcases Nat.lt_or_ge i place with hlt | hge
    · exact hpassed i a hget hle hlt
    · exact ih i a hget (by omega) (List.not_mem_of_not_mem_cons hnot)

theorem follows_of_places
    (htakes : List.Forall₂ (fun step place => ∃ a, s[place]? = some a ∧ Takes step.item a) steps
      places)
    (hascending : places.Pairwise (· < ·)) (hfrom : ∀ place ∈ places, start ≤ place)
    (hfirst : ∀ step, steps.head? = some step → step.wide = false → places.head? = some start)
    (hadjacent : ∀ i step, steps[i + 1]? = some step → step.wide = false →
      places[i + 1]? = places[i]?.map (· + 1))
    (hlast : (places.getLast?.map (· + 1)).getD start = s.length)
    (hpassed : ∀ i a, s[i]? = some a → start ≤ i → i ∉ places → Passed a) :
    Follows Takes Passed s start steps places := by
  induction htakes generalizing start with
  | nil =>
    obtain rfl : start = s.length := hlast
    exact .nil
  | @cons step place steps places htake _ ih =>
    obtain ⟨a, hget, htake⟩ := htake
    obtain ⟨hlt, hascending'⟩ := List.pairwise_cons.1 hascending
    obtain ⟨hle, _⟩ := List.forall_mem_cons.1 hfrom
    refine .cons hle ?_ ?_ hget htake (ih hascending' hlt ?_ ?_ ?_ ?_)
    · intro hwide
      exact Option.some.inj (hfirst step rfl hwide)
    · intro i x hx hi hplace
      refine hpassed i x hx hi fun hmem => ?_
      rcases List.mem_cons.1 hmem with rfl | hmem
      · omega
      · have hi' := hlt i hmem
        omega
    · intro next hnext hwide
      rw [List.head?_eq_getElem?] at hnext ⊢
      exact hadjacent 0 next hnext hwide
    · intro i next hnext hwide
      exact hadjacent (i + 1) next hnext hwide
    · exact (getD_getLast?_cons _ _ _).symm.trans hlast
    · intro i x hx hi hnot
      exact hpassed i x hx (by omega) (List.not_mem_cons_of_ne_of_not_mem (by omega) hnot)

end Follows

/-- **An alignment is a placement.** A pattern of steps is aligned with a sequence by giving every
step the place of an element that it takes. -/
theorem aligns_ofSteps_iff {steps : List (Step β)} {s : List α} (hne : steps ≠ []) :
    Aligns test skips (ofSteps steps) s ↔
      ∃ places, Placement (fun b a => test b a = true) (fun a => skips a = true) steps s
        places := by
  show Aligns test skips (ofSteps steps) (s.drop 0) ↔ _
  rw [aligns_drop_iff (Nat.zero_le s.length)]
  refine exists_congr fun places => ⟨fun h => ?_, fun h => ?_⟩
  · have hlen := h.takes.length_eq
    have hplaces : places ≠ [] := by
      rintro rfl
      exact hne (List.length_eq_zero_iff.1 hlen)
    have hlast := h.last
    rw [List.getLast?_eq_some_getLast hplaces] at hlast
    refine ⟨h.takes, h.ascending, fun _ => h.first, fun _ _ => h.adjacent, ?_,
      fun i a ha => h.passed i a ha (Nat.zero_le i)⟩
    rw [List.getLast?_eq_some_getLast hplaces, ← hlast]
    rfl
  · exact follows_of_places h.takes h.ascending (fun _ _ => Nat.zero_le _) h.first h.adjacent
      (by rw [h.last]; rfl) fun i a ha _ => h.passed i a ha

end CallRefactor.Pattern.Gapped
