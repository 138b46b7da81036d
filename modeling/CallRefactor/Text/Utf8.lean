/-!
# Byte offsets into a text

A text is a sequence of characters, and every offset into it counts the bytes of its UTF-8 form.
An offset is a boundary when no character straddles it. `splitAt?` cuts a text at a boundary and
refuses every other offset; everything else here is read off that cut.

Main statement: `splitAt?_eq_some_iff`, a cut at `n` succeeds exactly when the text is a part of
`n` bytes followed by the rest.
-/

namespace CallRefactor.Text

/-! ## Length in bytes -/

/-- The number of bytes of a text in UTF-8. -/
def byteLength : List Char → Nat
  | [] => 0
  | c :: cs => c.utf8Size + byteLength cs

@[simp] theorem byteLength_nil : byteLength [] = 0 := rfl

@[simp] theorem byteLength_cons (c : Char) (cs : List Char) :
    byteLength (c :: cs) = c.utf8Size + byteLength cs := rfl

@[simp] theorem byteLength_append (cs ds : List Char) :
    byteLength (cs ++ ds) = byteLength cs + byteLength ds := by
  induction cs with
  | nil => simp
  | cons c cs ih => simp [ih, Nat.add_assoc]

/-! ## Cutting at an offset -/

/-- Cuts a text at a byte offset, or `none` where the offset lies inside a character or beyond the
end. -/
def splitAt? : Nat → List Char → Option (List Char × List Char)
  | 0, cs => some ([], cs)
  | _ + 1, [] => none
  | n + 1, c :: cs =>
    if c.utf8Size ≤ n + 1 then
      (splitAt? (n + 1 - c.utf8Size) cs).map fun (before, after) => (c :: before, after)
    else none

@[simp] theorem splitAt?_zero (cs : List Char) : splitAt? 0 cs = some ([], cs) := by
  cases cs <;> rfl

theorem splitAt?_append (p r : List Char) : splitAt? (byteLength p) (p ++ r) = some (p, r) := by
  induction p with
  | nil => simp
  | cons c p ih =>
    have hc := c.utf8Size_pos
    obtain ⟨n, hn⟩ : ∃ n, byteLength (c :: p) = n + 1 := ⟨c.utf8Size + byteLength p - 1, by
      simp only [byteLength_cons]; omega⟩
    have hrest : n + 1 - c.utf8Size = byteLength p := by
      simp only [byteLength_cons] at hn; omega
    have hle : c.utf8Size ≤ n + 1 := by simp only [byteLength_cons] at hn; omega
    rw [hn, List.cons_append, splitAt?, if_pos hle, hrest, ih]
    rfl

theorem append_of_splitAt? {n : Nat} {cs p r : List Char} (h : splitAt? n cs = some (p, r)) :
    cs = p ++ r ∧ byteLength p = n := by
  induction cs generalizing n p with
  | nil =>
    cases n with
    | zero => simp at h; simp [h]
    | succ n => simp [splitAt?] at h
  | cons c cs ih =>
    cases n with
    | zero => simp at h; simp [h]
    | succ n =>
      simp only [splitAt?] at h
      split at h
      · rename_i hle
        obtain ⟨⟨p', r'⟩, hp, he⟩ := Option.map_eq_some_iff.1 h
        obtain ⟨rfl, rfl⟩ := Prod.mk.inj he
        obtain ⟨hcs, hlen⟩ := ih hp
        exact ⟨by simp [hcs], by simp only [byteLength_cons, hlen]; omega⟩
      · simp at h

/-- A cut at `n` succeeds exactly when the text is a part of `n` bytes and the rest. -/
theorem splitAt?_eq_some_iff {n : Nat} {cs p r : List Char} :
    splitAt? n cs = some (p, r) ↔ cs = p ++ r ∧ byteLength p = n :=
  ⟨append_of_splitAt?, fun ⟨hcs, hn⟩ => hcs ▸ hn ▸ splitAt?_append p r⟩

/-! ## Boundaries and slices -/

/-- An offset is a boundary of a text when the text can be cut there. -/
def IsBoundary (cs : List Char) (n : Nat) : Prop := (splitAt? n cs).isSome

instance (cs : List Char) (n : Nat) : Decidable (IsBoundary cs n) :=
  inferInstanceAs (Decidable (_ = true))

/-- The part of a text between two offsets, or `none` unless both are boundaries of it. -/
def between? (start stop : Nat) (cs : List Char) : Option (List Char) := do
  let (_, tail) ← splitAt? start cs
  let (middle, _) ← splitAt? (stop - start) tail
  return middle

/-- The part of a text between two offsets; empty where there is no such part. -/
def between (start stop : Nat) (cs : List Char) : List Char :=
  (between? start stop cs).getD []

example : between? 1 3 ['a', 'é', 'b'] = some ['é'] := by decide

example : between? 2 3 ['a', 'é', 'b'] = none := by decide

end CallRefactor.Text
