import Mathlib.Data.List.Basic

/-!
# Code units of a text

In UTF-16 a character is one code unit if its code point fits into sixteen bits, and a pair of
surrogates if not. No character has the code point of a surrogate, so the code units of a text
determine the text.

Main statement: `utf16_injective`.
-/

namespace CallRefactor.Text

variable {c d : Char} {unit : Nat} {xs ys : List Nat}

/-- The code units of a character: its code point, or a high and a low surrogate. -/
def utf16Char (c : Char) : List Nat :=
  if c.toNat < 0x10000 then [c.toNat]
  else [0xD800 + (c.toNat - 0x10000) / 0x400, 0xDC00 + (c.toNat - 0x10000) % 0x400]

/-- The code units of a text. -/
def utf16 (cs : List Char) : List Nat := cs.flatMap utf16Char

theorem utf16Char_of_lt (h : c.toNat < 0x10000) : utf16Char c = [c.toNat] := if_pos h

theorem utf16Char_of_le (h : 0x10000 ≤ c.toNat) : utf16Char c =
    [0xD800 + (c.toNat - 0x10000) / 0x400, 0xDC00 + (c.toNat - 0x10000) % 0x400] :=
  if_neg (by omega)

/-- The code units of a character are its code point or surrogates. -/
theorem mem_utf16Char (h : unit ∈ utf16Char c) : unit = c.toNat ∨ 0xD800 ≤ unit := by
  rcases Nat.lt_or_ge c.toNat 0x10000 with hlt | hge
  · rw [utf16Char_of_lt hlt] at h
    exact .inl (List.mem_singleton.1 h)
  · rw [utf16Char_of_le hge] at h
    simp only [List.mem_cons, List.not_mem_nil, or_false] at h
    omega

/-- The code point of a character is no surrogate. -/
theorem toNat_lt_or_lt (c : Char) : c.toNat < 0xD800 ∨ 0xDFFF < c.toNat ∧ c.toNat < 0x110000 :=
  c.valid

/-- Code units at the start of a text are those of one character only. -/
theorem utf16Char_append_inj (h : utf16Char c ++ xs = utf16Char d ++ ys) : c = d ∧ xs = ys := by
  have hc := toNat_lt_or_lt c
  have hd := toNat_lt_or_lt d
  rcases Nat.lt_or_ge c.toNat 0x10000 with hc' | hc' <;>
    rcases Nat.lt_or_ge d.toNat 0x10000 with hd' | hd'
  · rw [utf16Char_of_lt hc', utf16Char_of_lt hd'] at h
    obtain ⟨hunit, hrest⟩ := List.cons.inj h
    exact ⟨Char.toNat_inj.1 hunit, hrest⟩
  · -- the high surrogate of `d` would be the code point of `c`
    rw [utf16Char_of_lt hc', utf16Char_of_le hd'] at h
    have hunit := (List.cons.inj h).1
    omega
  · rw [utf16Char_of_le hc', utf16Char_of_lt hd'] at h
    have hunit := (List.cons.inj h).1
    omega
  · rw [utf16Char_of_le hc', utf16Char_of_le hd'] at h
    obtain ⟨hhigh, htail⟩ := List.cons.inj h
    obtain ⟨hlow, hrest⟩ := List.cons.inj htail
    exact ⟨Char.toNat_inj.1 (by omega), hrest⟩

theorem utf16Char_ne_nil (c : Char) : utf16Char c ≠ [] := by
  unfold utf16Char
  split <;> exact List.cons_ne_nil _ _

/-- Texts of the same code units are the same. -/
theorem utf16_injective : Function.Injective utf16 := by
  intro cs ds h
  induction cs generalizing ds with
  | nil =>
    cases ds with
    | nil => rfl
    | cons d ds => exact absurd (List.append_eq_nil_iff.1 h.symm).1 (utf16Char_ne_nil d)
  | cons c cs ih =>
    cases ds with
    | nil => exact absurd (List.append_eq_nil_iff.1 h).1 (utf16Char_ne_nil c)
    | cons d ds =>
      obtain ⟨rfl, hrest⟩ := utf16Char_append_inj h
      rw [ih hrest]

example : utf16 ['é', '😀'] = [0xE9, 0xD83D, 0xDE00] := by decide

end CallRefactor.Text
