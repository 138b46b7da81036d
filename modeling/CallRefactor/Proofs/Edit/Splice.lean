import CallRefactor.Edit.Apply
import CallRefactor.Proofs.Edit.Applicable

/-!
# Carrying out edits from left to right

`Edit.splice` reads a text once from left to right, copies what stands between the edits and writes
the replacements. `Edit.applyAll` works the other way round: it joins edits that touch and then
carries them out on the text as it changes, from the last to the first. On an applicable list both
give the same text.

What makes the backward run go through is that an edit leaves all of the text before it as it was:
after the edits behind an offset, the text still begins with what stood there.

Main statements: `splice_append`, a splice can be cut at any boundary between two edits;
`substituteAll_eq_splice`, edits carried out backwards; and `applyAll_eq_ok_iff`, applying a list of
edits succeeds exactly when it is applicable and then gives the splice of the sorted list.
-/

namespace CallRefactor.Edit

variable {text : List Char} {a b m : Nat} {edits xs ys : List Edit}

/-- The part of a text between two offsets with edits carried out from left to right. -/
def splice (text : List Char) (start : Nat) (edits : List Edit) (stop : Nat) : List Char :=
  match edits with
  | [] => Text.between start stop text
  | edit :: rest =>
    Text.between start edit.span.start text
      ++ (edit.replacement.toList ++ splice text edit.span.stop rest stop)

/-- Edits that stand in sequence between two boundaries of a text. -/
structure Within (text : List Char) (a : Nat) (edits : List Edit) (b : Nat) : Prop where
  /-- The first offset is a boundary. -/
  start : Text.IsBoundary text a
  /-- The last offset is a boundary. -/
  stop : Text.IsBoundary text b
  /-- The offsets are in order. -/
  le : a ≤ b
  /-- Every edit stands on boundaries. -/
  fits : ∀ e ∈ edits, e.span.Fits text
  /-- No edit starts before the first offset. -/
  from_start : ∀ e ∈ edits, a ≤ e.span.start
  /-- No edit stops behind the last offset. -/
  to_stop : ∀ e ∈ edits, e.span.stop ≤ b
  /-- Every edit ends before the next one starts, or where it starts. -/
  ordered : edits.Pairwise fun x y => x.span.stop ≤ y.span.start

theorem Within.nil (ha : Text.IsBoundary text a) (hb : Text.IsBoundary text b) (hab : a ≤ b) :
    Within text a [] b :=
  ⟨ha, hb, hab, by simp, by simp, by simp, .nil⟩

theorem Within.cons {e : Edit} (ha : Text.IsBoundary text a) (hae : a ≤ e.span.start)
    (he : e.span.Fits text) (h : Within text e.span.stop edits b) :
    Within text a (e :: edits) b := by
  have hle := e.span.start_le_stop
  have hb := h.le
  refine ⟨ha, h.stop, by omega, ?_, ?_, ?_, List.pairwise_cons.2 ⟨h.from_start, h.ordered⟩⟩
  · intro x hx
    rcases List.mem_cons.1 hx with rfl | hx
    · exact he
    · exact h.fits x hx
  · intro x hx
    rcases List.mem_cons.1 hx with rfl | hx
    · exact hae
    · have hx' := h.from_start x hx
      omega
  · intro x hx
    rcases List.mem_cons.1 hx with rfl | hx
    · exact hb
    · exact h.to_stop x hx

theorem Within.tail {e : Edit} (h : Within text a (e :: edits) b) :
    Within text e.span.stop edits b where
  start := (h.fits e List.mem_cons_self).2
  stop := h.stop
  le := h.to_stop e List.mem_cons_self
  fits x hx := h.fits x (List.mem_cons_of_mem _ hx)
  from_start := (List.pairwise_cons.1 h.ordered).1
  to_stop x hx := h.to_stop x (List.mem_cons_of_mem _ hx)
  ordered := (List.pairwise_cons.1 h.ordered).2

theorem Within.append (hx : Within text a xs m) (hy : Within text m ys b) :
    Within text a (xs ++ ys) b := by
  induction xs generalizing a with
  | nil =>
    have ham := hx.le
    have hmb := hy.le
    refine ⟨hx.start, hy.stop, by omega, hy.fits, ?_, hy.to_stop, hy.ordered⟩
    intro y hmem
    have hfrom := hy.from_start y hmem
    omega
  | cons x xs ih =>
    exact Within.cons hx.start (hx.from_start x List.mem_cons_self)
      (hx.fits x List.mem_cons_self) (ih hx.tail)

/-- Sorted, the edits of an applicable list stand in sequence in every span that holds them all. -/
theorem Applicable.within {s : Span} (h : Applicable text edits) (hs : s.Fits text)
    (hin : ∀ e ∈ edits, s.Contains e.span) : Within text s.start (sort edits) s.stop where
  start := hs.1
  stop := hs.2
  le := s.start_le_stop
  fits e he := h.fits e (mem_sort.1 he)
  from_start e he := (hin e (mem_sort.1 he)).1
  to_stop e he := (hin e (mem_sort.1 he)).2
  ordered := h.pairwise_sort.imp Span.Precedes.stop_le

theorem Applicable.within_text (h : Applicable text edits) :
    Within text 0 (sort edits) (Text.byteLength text) :=
  h.within (s := ⟨0, Text.byteLength text, Nat.zero_le _⟩)
    ⟨Text.isBoundary_zero text, Text.isBoundary_byteLength text⟩
    fun e he => ⟨Nat.zero_le _, (h.fits e he).2.le_byteLength⟩

/-! ## Cutting a splice -/

/-- The text in front of the first edit can be cut off. -/
theorem splice_eq_between_append (ha : Text.IsBoundary text a) (ham : a ≤ m)
    (h : Within text m ys b) :
    splice text a ys b = Text.between a m text ++ splice text m ys b := by
  cases ys with
  | nil =>
    unfold splice
    rw [Text.between_append_between ha h.start h.stop ham h.le]
  | cons y ys =>
    have hy := (h.fits y List.mem_cons_self).1
    have hmy := h.from_start y List.mem_cons_self
    simp only [splice]
    rw [← List.append_assoc (Text.between a m text),
      Text.between_append_between ha h.start hy ham hmy]

/-- A splice can be cut at any boundary between two edits. -/
theorem splice_append (hx : Within text a xs m) (hy : Within text m ys b) :
    splice text a (xs ++ ys) b = splice text a xs m ++ splice text m ys b := by
  induction xs generalizing a with
  | nil => exact splice_eq_between_append hx.start hx.le hy
  | cons x xs ih =>
    simp only [List.cons_append, splice]
    rw [ih hx.tail]
    simp only [List.append_assoc]

/-! ## Carrying out edits backwards -/

/-- An edit replaces the middle one of three parts. -/
theorem substitute_parts {e : Edit} {p q r : List Char} (hstart : Text.byteLength p = e.span.start)
    (hstop : Text.byteLength p + Text.byteLength q = e.span.stop) :
    substitute e (p ++ (q ++ r)) = p ++ (e.replacement.toList ++ r) := by
  have hlen : e.span.length = Text.byteLength q := by
    unfold Span.length
    omega
  unfold substitute
  rw [← hstart, hlen, Text.splitAt?_append]
  simp only [Text.splitAt?_append, List.append_assoc]

/-- Edits carried out from the last to the first leave the text before them as it was and make the
rest of it their splice. -/
theorem substituteAll_eq_append (h : Within text a edits (Text.byteLength text)) :
    substituteAll edits text
      = Text.between 0 a text ++ splice text a edits (Text.byteLength text) := by
  have h0 := Text.isBoundary_zero text
  induction edits generalizing a with
  | nil =>
    unfold splice
    rw [Text.between_append_between h0 h.start h.stop (Nat.zero_le a) h.le]
    exact (Text.between_zero_byteLength text).symm
  | cons e rest ih =>
    obtain ⟨hstart, hstop⟩ := h.fits e List.mem_cons_self
    have hle := e.span.start_le_stop
    have ha := h.from_start e List.mem_cons_self
    -- cut the text before the edits behind `e` into what `e` keeps and what it replaces
    have hcut : Text.between 0 e.span.stop text
        = Text.between 0 e.span.start text ++ Text.between e.span.start e.span.stop text :=
      (Text.between_append_between h0 hstart hstop (Nat.zero_le _) hle).symm
    have hkept : Text.byteLength (Text.between 0 e.span.start text) = e.span.start :=
      Text.byteLength_between h0 hstart (Nat.zero_le _)
    have hlost : Text.byteLength (Text.between e.span.start e.span.stop text)
        = e.span.stop - e.span.start := Text.byteLength_between hstart hstop hle
    have hrest : substituteAll (e :: rest) text = substitute e (substituteAll rest text) := rfl
    rw [hrest, ih h.tail, hcut, List.append_assoc, substitute_parts hkept (by omega),
      ← Text.between_append_between h0 h.start hstart (Nat.zero_le a) ha]
    simp only [splice, List.append_assoc]

theorem substituteAll_eq_splice (h : Within text 0 edits (Text.byteLength text)) :
    substituteAll edits text = splice text 0 edits (Text.byteLength text) := by
  rw [substituteAll_eq_append h, Text.between_self h.start, List.nil_append]

/-! ## Joining edits that touch -/

theorem join_span {e next : Edit} (h : e.span.stop ≤ next.span.start) :
    (e.join next).span.start = e.span.start ∧ (e.join next).span.stop = next.span.stop := by
  have he := e.span.start_le_stop
  have hn := next.span.start_le_stop
  show min e.span.start next.span.start = e.span.start ∧
    max e.span.stop next.span.stop = next.span.stop
  omega

theorem Within.join {e next : Edit} (h : Within text a (e :: next :: edits) b) :
    Within text a (e.join next :: edits) b := by
  obtain ⟨hstart, hstop⟩ := join_span (h.tail.from_start next List.mem_cons_self)
  have he := h.fits e List.mem_cons_self
  have hn := h.tail.fits next List.mem_cons_self
  refine Within.cons h.start ?_ ⟨?_, ?_⟩ ?_
  · rw [hstart]
    exact h.from_start e List.mem_cons_self
  · rw [hstart]
    exact he.1
  · rw [hstop]
    exact hn.2
  · rw [hstop]
    exact h.tail.tail

/-- Joining two edits that touch does not change the splice. -/
theorem splice_join {e next : Edit} (h : Within text a (e :: next :: edits) b)
    (htouch : e.span.stop = next.span.start) :
    splice text a (e.join next :: edits) b = splice text a (e :: next :: edits) b := by
  obtain ⟨hstart, hstop⟩ := join_span (Nat.le_of_eq htouch)
  have hgap : Text.between e.span.stop next.span.start text = [] := by
    rw [htouch]
    exact Text.between_self (h.tail.fits next List.mem_cons_self).1
  simp only [splice, hstart, hstop, hgap, List.nil_append]
  simp only [Edit.join, String.toList_append, List.append_assoc]

theorem splice_coalesceFrom {e : Edit} (h : Within text a (e :: edits) b) :
    Within text a (coalesceFrom e edits) b ∧
      splice text a (coalesceFrom e edits) b = splice text a (e :: edits) b := by
  induction edits generalizing a e with
  | nil => exact ⟨h, rfl⟩
  | cons next rest ih =>
    rw [coalesceFrom]
    split
    · next htouch =>
      -- the run goes on with the joined edit in the place of `e`
      obtain ⟨hwithin, hsplice⟩ := ih h.join
      exact ⟨hwithin, by rw [hsplice, splice_join h htouch]⟩
    · obtain ⟨hwithin, hsplice⟩ := ih h.tail
      have he := h.fits e List.mem_cons_self
      refine ⟨Within.cons h.start (h.from_start e List.mem_cons_self) he hwithin, ?_⟩
      unfold splice
      rw [hsplice]

/-- Joining edits that touch keeps them in sequence and does not change the splice. -/
theorem splice_coalesce (h : Within text a edits b) :
    Within text a (coalesce edits) b ∧
      splice text a (coalesce edits) b = splice text a edits b := by
  cases edits with
  | nil => exact ⟨h, rfl⟩
  | cons e rest => exact splice_coalesceFrom h

/-! ## Applying edits -/

/-- Applying a list of edits succeeds exactly when it is applicable, and then gives the splice of
the sorted list. -/
theorem applyAll_eq_ok_iff {text : String} {out : String} :
    applyAll text edits = .ok out ↔ Applicable text.toList edits ∧
      String.ofList (splice text.toList 0 (sort edits) (Text.byteLength text.toList)) = out := by
  unfold applyAll
  constructor
  · intro h
    split at h
    · simp at h
    · next normal hnormal =>
      obtain ⟨happ, rfl⟩ := normalize_eq_ok_iff.1 hnormal
      obtain ⟨hwithin, hsplice⟩ := splice_coalesce happ.within_text
      rw [substituteAll_eq_splice hwithin, hsplice] at h
      exact ⟨happ, Except.ok.inj h⟩
  · rintro ⟨happ, rfl⟩
    obtain ⟨hwithin, hsplice⟩ := splice_coalesce happ.within_text
    rw [normalize_eq_ok_iff.2 ⟨happ, rfl⟩]
    simp only [substituteAll_eq_splice hwithin, hsplice]

end CallRefactor.Edit
