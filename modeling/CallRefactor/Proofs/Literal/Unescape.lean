import CallRefactor.Literal.Spelling
import CallRefactor.Proofs.Literal.Numeral
import CallRefactor.Proofs.Text.Utf16

/-!
# Reading escapes

What stands between the quotes of a token is read in two steps. Unicode escapes are replaced first,
all over the token and whatever they stand for; a backslash begins one only if the backslashes in a
row in front of it are even in number. Then the escapes of strings and characters are read from the
code units: letters, quotes and octal digits behind a backslash. No character of the text ends the
token or the line, so the quote and the line ends are refused where they stand for themselves.

Both steps end because what they go on with is shorter. Both keep a backslash at the end of a text:
no escape ends with one but that of the backslash itself.
-/

namespace CallRefactor

variable {n unit value quote : Nat} {c letter : Char} {cs rest : List Char}
  {units more : List Nat}

/-! ## Unicode escapes -/

/-- The code unit that a Unicode escape stands for, and what follows it. It begins behind the
backslash. -/
def unicodeEscape? : List Char → Option (Nat × List Char)
  | 'u' :: a :: b :: c :: d :: rest =>
    ([a, b, c, d].mapM (Integer.digit? 16)).map fun ds => (Integer.positional 16 ds, rest)
  | _ => none

theorem length_lt_of_unicodeEscape? (h : unicodeEscape? cs = some (unit, rest)) :
    rest.length < cs.length := by
  unfold unicodeEscape? at h
  split at h
  · obtain ⟨ds, _, heq⟩ := Option.map_eq_some_iff.1 h
    obtain ⟨_, rfl⟩ := Prod.mk.inj heq
    simp only [List.length_cons]
    omega
  · cases h

/-- No Unicode escape begins with another letter. -/
theorem unicodeEscape?_cons_of_ne (h : c ≠ 'u') (cs : List Char) :
    unicodeEscape? (c :: cs) = none := by
  unfold unicodeEscape?
  split
  · next heq => exact absurd (List.cons.inj heq).1 h
  · rfl

theorem digit?_hexDigit : ∀ d < 16, Integer.digit? 16 (Text.hexDigit d) = some d := by decide

/-- Four hexadecimal digits are read as the number that they were written for. -/
theorem unicodeEscape?_hex4 (h : n < 0x10000) (rest : List Char) :
    unicodeEscape? ('u' :: (Text.hex4 n ++ rest)) = some (n, rest) := by
  have hdigits : (Text.hex4 n).mapM (Integer.digit? 16) =
      some [n / 4096 % 16, n / 256 % 16, n / 16 % 16, n % 16] := by
    simp [Text.hex4, digit?_hexDigit _ (Nat.mod_lt _ (by decide : 16 > 0))]
  have hvalue : Integer.positional 16 [n / 4096 % 16, n / 256 % 16, n / 16 % 16, n % 16] = n := by
    simp only [Integer.positional, List.foldl_cons, List.foldl_nil]
    omega
  show ((Text.hex4 n).mapM (Integer.digit? 16)).map _ = _
  rw [hdigits, Option.map_some, hvalue]
  rfl

/-- The number of backslashes in a row at the end of a text, with `n` of them in front of it. -/
def slashes (n : Nat) : List Char → Nat
  | [] => n
  | c :: cs => slashes (if c = '\\' then n + 1 else 0) cs

theorem slashes_append (n : Nat) (cs rest : List Char) :
    slashes n (cs ++ rest) = slashes (slashes n cs) rest := by
  induction cs generalizing n with
  | nil => rfl
  | cons c cs ih => exact ih _

theorem slashes_zero (h : '\\' ∉ cs) : slashes 0 cs = 0 := by
  induction cs with
  | nil => rfl
  | cons c cs ih =>
    rw [slashes, if_neg (List.ne_of_not_mem_cons h).symm]
    exact ih (List.not_mem_of_not_mem_cons h)

/-- The code units of a text whose Unicode escapes are replaced, with `n` backslashes in a row in
front of it. -/
def translate (n : Nat) : List Char → List Nat
  | [] => []
  | c :: cs =>
    if c ≠ '\\' then Text.utf16Char c ++ translate 0 cs
    else if n % 2 = 1 then '\\'.toNat :: translate (n + 1) cs
    else
      match h : unicodeEscape? cs with
      | some (unit, rest) =>
        have := length_lt_of_unicodeEscape? h
        unit :: translate 0 rest
      | none => '\\'.toNat :: translate (n + 1) cs
termination_by cs => cs.length
decreasing_by all_goals (simp only [List.length_cons]; omega)

theorem translate_of_ne (h : c ≠ '\\') (n : Nat) (cs : List Char) :
    translate n (c :: cs) = Text.utf16Char c ++ translate 0 cs := by
  rw [translate, if_pos h]

theorem translate_of_unicodeEscape? (hn : n % 2 = 0) (h : unicodeEscape? cs = some (unit, rest)) :
    translate n ('\\' :: cs) = unit :: translate 0 rest := by
  rw [translate, if_neg (not_not.2 rfl), if_neg (by omega)]
  split
  · next heq =>
    obtain ⟨rfl, rfl⟩ := Prod.mk.inj (Option.some.inj (h.symm.trans heq))
    rfl
  · next heq => cases h.symm.trans heq

theorem translate_of_unicodeEscape?_eq_none (h : unicodeEscape? cs = none) (n : Nat) :
    translate n ('\\' :: cs) = '\\'.toNat :: translate (n + 1) cs := by
  rw [translate, if_neg (not_not.2 rfl)]
  split
  · rfl
  split
  · next heq => cases h.symm.trans heq
  · rfl

/-- A character behind a backslash stands for itself, unless a Unicode escape begins with it. -/
theorem translate_slash_append (hn : n % 2 = 0) (h : c ≠ 'u') (cs : List Char) :
    translate n (['\\', c] ++ cs) =
      '\\'.toNat :: (Text.utf16Char c ++ translate (slashes n ['\\', c]) cs) := by
  rw [List.cons_append, List.singleton_append,
    translate_of_unicodeEscape?_eq_none (unicodeEscape?_cons_of_ne h cs)]
  refine congrArg _ ?_
  show _ = Text.utf16Char c ++ translate (if c = '\\' then n + 1 + 1 else 0) cs
  by_cases hc : c = '\\'
  · subst hc
    rw [translate, if_neg (not_not.2 rfl), if_pos (by omega), if_pos rfl]
    rfl
  · rw [translate_of_ne hc, if_neg hc]

/-! ## Escapes of strings and characters -/

/-- The characters that have an escape with a letter or themselves behind the backslash. -/
def letterEscapes : List (Char × Char) :=
  [('b', '\x08'), ('t', '\t'), ('n', '\n'), ('f', '\x0c'), ('r', '\r'), ('"', '"'),
    ('\'', '\''), ('\\', '\\')]

/-- The value of a code unit as an octal digit. -/
def octalDigit? (unit : Nat) : Option Nat :=
  if '0'.toNat ≤ unit ∧ unit ≤ '7'.toNat then some (unit - '0'.toNat) else none

theorem octalDigit?_eq_none_iff : octalDigit? unit = none ↔ unit < 48 ∨ 55 < unit := by
  show (if 48 ≤ unit ∧ unit ≤ 55 then some (unit - 48) else none) = none ↔ _
  split
  · next h => exact ⟨nofun, fun h' => by omega⟩
  · next h => exact ⟨fun _ => by omega, fun _ => rfl⟩

theorem octalDigit?_toNat (h : isOctalDigit c = false) : octalDigit? c.toNat = none := by
  rw [octalDigit?_eq_none_iff]
  by_contra hbounds
  have hle : '0' ≤ c ∧ c ≤ '7' := ⟨show 48 ≤ c.toNat by omega, show c.toNat ≤ 55 by omega⟩
  simp [isOctalDigit, hle] at h

/-- The value of the octal digits at the start, behind others of the value `value`, and what follows
them. There are at most `count` of them, and only as many as keep the value below 256. -/
def readOctal : Nat → Nat → List Nat → Nat × List Nat
  | count + 1, value, unit :: units =>
    match octalDigit? unit with
    | some digit =>
      if 8 * value + digit < 256 then readOctal count (8 * value + digit) units
      else (value, unit :: units)
    | none => (value, unit :: units)
  | _, value, units => (value, units)

/-- What the escape at the start stands for, and what follows it. It begins behind the backslash. -/
def escape? : List Nat → Option (Nat × List Nat)
  | [] => none
  | unit :: units =>
    match octalDigit? unit with
    | some digit => some (readOctal 2 digit units)
    | none =>
      (letterEscapes.find? (·.1.toNat = unit)).map fun (_, c) => (c.toNat, units)

/-- Octal digits end where no octal digit follows. -/
theorem readOctal_of_head? (h : ∀ unit ∈ units.head?, octalDigit? unit = none)
    (count value : Nat) : readOctal count value units = (value, units) := by
  unfold readOctal
  split
  · next unit units =>
    rw [h unit rfl]
  · rfl

theorem escape?_of_mem (h : (letter, c) ∈ letterEscapes) (units : List Nat) :
    escape? (letter.toNat :: units) = some (c.toNat, units) := by
  have hall : ∀ e ∈ letterEscapes, octalDigit? e.1.toNat = none ∧
      letterEscapes.find? (·.1.toNat = e.1.toNat) = some e := by decide
  obtain ⟨hoctal, hfind⟩ := hall _ h
  rw [escape?, hoctal]
  simp only
  rw [hfind]
  rfl

theorem length_readOctal_le (count value : Nat) (units : List Nat) :
    (readOctal count value units).2.length ≤ units.length := by
  induction count generalizing value units with
  | zero => exact Nat.le_refl _
  | succ count ih =>
    cases units with
    | nil => exact Nat.le_refl _
    | cons unit units =>
      unfold readOctal
      split
      · split
        · exact Nat.le_succ_of_le (ih _ _)
        · exact Nat.le_refl _
      · exact Nat.le_refl _

theorem length_lt_of_escape? (h : escape? units = some (value, more)) :
    more.length < units.length := by
  cases units with
  | nil => cases h
  | cons unit units =>
    rw [escape?] at h
    split at h
    · next digit _ =>
      have hle := length_readOctal_le 2 digit units
      rw [Option.some.inj h] at hle
      exact Nat.lt_succ_of_le hle
    · obtain ⟨_, _, heq⟩ := Option.map_eq_some_iff.1 h
      obtain ⟨_, rfl⟩ := Prod.mk.inj heq
      exact Nat.lt_succ_self _

/-- The code units of a text whose escapes are read, or `none` if one of them is no escape or the
text does not end where the token does. -/
def readEscapes (quote : Nat) : List Nat → Option (List Nat)
  | [] => some []
  | unit :: units =>
    if unit = '\\'.toNat then
      match h : escape? units with
      | some (value, more) =>
        have := length_lt_of_escape? h
        (readEscapes quote more).map (value :: ·)
      | none => none
    else if unit = quote ∨ unit = '\n'.toNat ∨ unit = '\r'.toNat then none
    else (readEscapes quote units).map (unit :: ·)
termination_by units => units.length
decreasing_by all_goals (simp only [List.length_cons]; omega)

/-- A code unit that stands for itself in a token with the given quote. -/
def IsPlain (quote unit : Nat) : Prop :=
  unit ≠ '\\'.toNat ∧ unit ≠ quote ∧ unit ≠ '\n'.toNat ∧ unit ≠ '\r'.toNat

theorem readEscapes_of_isPlain (h : ∀ unit ∈ units, IsPlain quote unit) (more : List Nat) :
    readEscapes quote (units ++ more) = (readEscapes quote more).map (units ++ ·) := by
  induction units with
  | nil => exact Option.map_id'.symm
  | cons unit units ih =>
    obtain ⟨hslash, hquote, hline, hreturn⟩ := h unit List.mem_cons_self
    have hends : ¬ (unit = quote ∨ unit = '\n'.toNat ∨ unit = '\r'.toNat) :=
      fun h => h.elim hquote fun h => h.elim hline hreturn
    rw [List.cons_append, readEscapes, if_neg hslash, if_neg hends,
      ih fun unit hunit => h unit (List.mem_cons_of_mem _ hunit), Option.map_map]
    rfl

theorem readEscapes_of_escape? (h : escape? units = some (value, more)) :
    readEscapes quote ('\\'.toNat :: units) = (readEscapes quote more).map (value :: ·) := by
  rw [readEscapes, if_pos rfl]
  split
  · next heq =>
    obtain ⟨rfl, rfl⟩ := Prod.mk.inj (Option.some.inj (h.symm.trans heq))
    rfl
  · next heq => cases h.symm.trans heq

/-- The code units of the text in a token with the given quote. -/
def unescape (quote : Char) (body : List Char) : Option (List Nat) :=
  readEscapes quote.toNat (translate 0 body)

example : unescape '"' "\\u0041\\\\u0041\\78\\400".toList =
    some (Text.utf16 "A\\u0041\x078\x200".toList) := by decide +kernel

/-! ## Texts that end with a backslash -/

theorem getLast?_of_cons {α : Type} {x y : α} {ys : List α} (h : (x :: ys).getLast? = some y)
    (hne : x ≠ y) : ys.getLast? = some y := by
  cases ys with
  | nil => exact absurd (Option.some.inj h) hne
  | cons z ys => exact h

/-- No Unicode escape ends with a backslash. -/
theorem getLast?_of_unicodeEscape? (h : unicodeEscape? cs = some (unit, rest))
    (hlast : cs.getLast? = some '\\') : rest.getLast? = some '\\' := by
  unfold unicodeEscape? at h
  split at h
  · next a b c d rest' =>
    obtain ⟨ds, hds, heq⟩ := Option.map_eq_some_iff.1 h
    obtain ⟨_, rfl⟩ := Prod.mk.inj heq
    cases rest' with
    | cons e rest' => exact hlast
    | nil =>
      obtain rfl : d = '\\' := Option.some.inj hlast
      have hnone : [a, b, c, '\\'].mapM (Integer.digit? 16) = none := by
        simp [show Integer.digit? 16 '\\' = none from rfl]
      cases hnone.symm.trans hds
  · cases h

theorem getLast?_translate (h : cs.getLast? = some '\\') (n : Nat) :
    (translate n cs).getLast? = some '\\'.toNat := by
  fun_induction translate n cs with
  | case1 => cases h
  | case2 n c cs hc ih =>
    rw [List.getLast?_append, ih (getLast?_of_cons h hc), Option.some_or]
  | case3 n c cs _ _ ih =>
    cases cs with
    | nil => simp [translate]
    | cons d cs => exact List.mem_getLast?_cons (ih h)
  | case4 n c cs _ _ unit rest hescape _ ih =>
    cases cs with
    | nil => cases hescape
    | cons d cs => exact List.mem_getLast?_cons (ih (getLast?_of_unicodeEscape? hescape h))
  | case5 n c cs _ _ _ ih =>
    cases cs with
    | nil => simp [translate]
    | cons d cs => exact List.mem_getLast?_cons (ih h)

theorem getLast?_readOctal (h : units.getLast? = some '\\'.toNat) (count value : Nat) :
    (readOctal count value units).2.getLast? = some '\\'.toNat := by
  fun_induction readOctal count value units with
  | case1 count value unit units digit hdigit _ ih =>
    have hne : unit ≠ '\\'.toNat := by
      rintro rfl
      cases hdigit
    exact ih (getLast?_of_cons h hne)
  | case2 => exact h
  | case3 => exact h
  | case4 => exact h

/-- Only the escape of a backslash ends with a backslash. -/
theorem getLast?_of_escape? (h : escape? units = some (value, more))
    (hlast : units.getLast? = some '\\'.toNat) :
    (value :: more).getLast? = some '\\'.toNat := by
  cases units with
  | nil => cases h
  | cons unit units =>
    rw [escape?] at h
    split at h
    · next digit hdigit =>
      have hne : unit ≠ '\\'.toNat := by
        rintro rfl
        cases hdigit
      have hmore := getLast?_readOctal (getLast?_of_cons hlast hne) 2 digit
      rw [Option.some.inj h] at hmore
      exact List.mem_getLast?_cons hmore
    · obtain ⟨⟨letter, c⟩, hfind, heq⟩ := Option.map_eq_some_iff.1 h
      obtain ⟨rfl, rfl⟩ := Prod.mk.inj heq
      cases units with
      | cons => exact List.mem_getLast?_cons hlast
      | nil =>
        obtain rfl : unit = '\\'.toNat := Option.some.inj hlast
        cases hfind
        rfl

theorem getLast?_readEscapes {values : List Nat} (h : readEscapes quote units = some values)
    (hlast : units.getLast? = some '\\'.toNat) : values.getLast? = some '\\'.toNat := by
  fun_induction readEscapes quote units generalizing values with
  | case1 => cases hlast
  | case2 units value more hescape _ ih =>
    obtain ⟨values, hmore, rfl⟩ := Option.map_eq_some_iff.1 h
    cases units with
    | nil => cases hescape
    | cons unit units =>
      have hvalue := getLast?_of_escape? hescape hlast
      cases more with
      | cons => exact List.mem_getLast?_cons (ih hmore hvalue)
      | nil =>
        rw [readEscapes] at hmore
        obtain rfl := Option.some.inj hmore
        exact hvalue
  | case3 => cases h
  | case4 => cases h
  | case5 unit units hslash _ ih =>
    obtain ⟨values, hmore, rfl⟩ := Option.map_eq_some_iff.1 h
    exact List.mem_getLast?_cons (ih hmore (getLast?_of_cons hlast hslash))

end CallRefactor
