import CallRefactor.Literal.Spelling
import CallRefactor.Proofs.Literal.Numeral
import CallRefactor.Proofs.Text.Occurrence

/-!
# Integer tokens

The literals that a program writes integers with: decimal, hexadecimal behind `0x`, binary behind
`0b` and octal behind a zero, with low lines between the digits, and with the letter `l` behind them
if they have 64 bits. A decimal literal is in range if its number is, and the greatest number of all
only behind a minus sign; the others give the bits of the number.

Main statements: `denotesSigned?_spelling_append`, a value spelled in front of a suffix of its width
denotes that value, and `Token.Proper.breakAt?_of_decimal`, a decimal token spells its value as a
whole or not at all.
-/

namespace CallRefactor

/-! ## Values -/

/-- The number of an integer value. -/
def Literal.number : Literal → Int
  | .int v => v.toInt
  | .long v => v.toInt
  | _ => 0

/-- Two integer values of the same number of bits. -/
def Literal.SameWidth : Literal → Literal → Prop
  | .int _, .int _ => True
  | .long _, .long _ => True
  | _, _ => False

namespace Integer

/-- The integer value of 32 bits, or of 64, that is congruent to a number. -/
def ofNumber (long : Bool) (i : Int) : Literal :=
  if long then .long (Int64.ofInt i) else .int (Int32.ofInt i)

/-- The numbers of 32 bits, or of 64, go from `-half` up to `half`, which is none of them. -/
def half (long : Bool) : Nat := if long then 2 ^ 63 else 2 ^ 31

theorem half_pos (long : Bool) : 0 < half long := by
  cases long <;> decide

/-- An integer value of 32 bits, or of 64. -/
inductive HasWidth : Bool → Literal → Prop where
  /-- A value of 32 bits. -/
  | int (v : Int32) : HasWidth false (.int v)
  /-- A value of 64 bits. -/
  | long (v : Int64) : HasWidth true (.long v)

variable {long negated : Bool} {i : Int} {n : Nat} {v w : Literal}

theorem hasWidth_ofNumber (long : Bool) (i : Int) : HasWidth long (ofNumber long i) := by
  cases long with
  | false => exact .int _
  | true => exact .long _

theorem HasWidth.of_sameWidth (hv : HasWidth long v) (h : v.SameWidth w) : HasWidth long w := by
  cases hv with
  | int a =>
    cases w with
    | int b => exact .int b
    | _ => exact h.elim
  | long a =>
    cases w with
    | long b => exact .long b
    | _ => exact h.elim

theorem HasWidth.bounds (h : HasWidth long v) :
    -(half long : Int) ≤ v.number ∧ v.number < half long := by
  cases h with
  | int v => exact ⟨v.le_toInt, v.toInt_lt⟩
  | long v => exact ⟨v.le_toInt, v.toInt_lt⟩

theorem HasWidth.ofNumber_number (h : HasWidth long v) : ofNumber long v.number = v := by
  cases h with
  | int v => exact congrArg Literal.int v.ofInt_toInt
  | long v => exact congrArg Literal.long v.ofInt_toInt

theorem number_ofNumber (hlo : -(half long : Int) ≤ i) (hhi : i < half long) :
    (ofNumber long i).number = i := by
  cases long with
  | false => exact Int32.toInt_ofInt_of_le hlo hhi
  | true => exact Int64.toInt_ofInt_of_le hlo hhi

/-- A number from the upper half of the bits is that of a negative value. -/
theorem number_ofNumber_neg (hlo : half long ≤ n) (hhi : n < 2 * half long) :
    (ofNumber long n).number < 0 := by
  cases long with
  | false =>
    have hbmod : (ofNumber false n).number = (n : Int).bmod (2 ^ 32) := Int32.toInt_ofInt
    simp only [half, Bool.false_eq_true, if_false] at hlo hhi
    rw [hbmod, Int.bmod]
    omega
  | true =>
    have hbmod : (ofNumber true n).number = (n : Int).bmod (2 ^ 64) := Int64.toInt_ofInt
    simp only [half, if_true] at hlo hhi
    rw [hbmod, Int.bmod]
    omega

/-- What is written in front of the digits of a negative number. -/
def sign (negative : Bool) : List Char := if negative then ['-'] else []

theorem HasWidth.spelling (h : HasWidth long v) :
    v.spelling = sign (v.number < 0) ++ Nat.toDigits 10 v.number.natAbs := by
  have hshow : v.spelling = v.number.repr.toList := by
    cases h <;> rfl
  rw [hshow, Int.repr_eq_if]
  by_cases hneg : v.number < 0
  · rw [if_neg (by omega), String.toList_append, Nat.toList_repr]
    have habs : (-v.number).toNat = v.number.natAbs := by omega
    rw [habs]
    simp [sign, hneg]
  · rw [if_pos (by omega), Nat.toList_repr]
    have habs : v.number.toNat = v.number.natAbs := by omega
    rw [habs]
    simp [sign, hneg]

/-! ## Tokens -/

/-- The radix of an integer literal. -/
inductive Radix where
  /-- Digits from zero to nine, without a zero in front. -/
  | decimal
  /-- Behind `0x`. -/
  | hexadecimal
  /-- Behind a zero. -/
  | octal
  /-- Behind `0b`. -/
  | binary
deriving DecidableEq

/-- The number of digits that a radix has. -/
def Radix.base : Radix → Nat
  | .decimal => 10
  | .hexadecimal => 16
  | .octal => 8
  | .binary => 2

/-- The parts of an integer literal. -/
structure Token where
  /-- The radix. -/
  radix : Radix
  /-- What marks the radix. A zero that marks an octal literal is one of its digits. -/
  lead : List Char
  /-- The digits. -/
  digits : List Char
  /-- The letter of a literal of 64 bits. -/
  suffix : List Char
deriving DecidableEq

/-- Cuts off the letter of a literal of 64 bits. -/
def cutSuffix (cs : List Char) : List Char × List Char :=
  if cs.getLast? = some 'l' then (cs.dropLast, ['l'])
  else if cs.getLast? = some 'L' then (cs.dropLast, ['L'])
  else (cs, [])

/-- Cuts off what marks the radix. -/
def cutLead : List Char → Radix × List Char × List Char
  | '0' :: c :: cs =>
    if c = 'x' ∨ c = 'X' then (.hexadecimal, ['0', c], cs)
    else if c = 'b' ∨ c = 'B' then (.binary, ['0', c], cs)
    else (.octal, [], '0' :: c :: cs)
  | cs => (.decimal, [], cs)

/-- The parts of a literal. -/
def Token.of (cs : List Char) : Token :=
  let (body, suffix) := cutSuffix cs
  let (radix, lead, digits) := cutLead body
  ⟨radix, lead, digits, suffix⟩

namespace Token

/-- Whether a literal has 64 bits. -/
def isLong (t : Token) : Bool := !t.suffix.isEmpty

/-- The number that the number of a literal is smaller than, behind a minus sign or without. -/
def bound (t : Token) (negated : Bool) : Nat :=
  match t.radix with
  | .decimal => half t.isLong + negated.toNat
  | _ => 2 * half t.isLong

/-- The value of a literal, behind a minus sign or without. -/
def value? (negated : Bool) (t : Token) : Option Literal :=
  (numeral? t.radix.base t.digits).bind fun n =>
    if n < t.bound negated then some (ofNumber t.isLong (if negated then -n else n)) else none

end Token

/-- The value that an integer literal denotes. -/
def denotes? (cs : List Char) : Option Literal := (Token.of cs).value? false

/-- The value that an integer literal denotes, with a minus sign in front of it or without. -/
def denotesSigned? : List Char → Option Literal
  | '-' :: cs => (Token.of cs).value? true
  | cs => denotes? cs

example : denotes? "0x8000_0000".toList = some (.int (-2147483648)) := by decide +kernel

example : denotesSigned? "-2147483648".toList = some (.int (-2147483648)) := by decide +kernel

/-! ## Putting tokens together -/

/-- The letters that mark a radix behind a zero. -/
def Radix.marks : Radix → List Char
  | .hexadecimal => ['x', 'X']
  | .binary => ['b', 'B']
  | _ => []

theorem Radix.mem_marks_hexadecimal {c : Char} :
    c ∈ Radix.hexadecimal.marks ↔ c = 'x' ∨ c = 'X' := by
  simp [marks]

theorem Radix.mem_marks_binary {c : Char} : c ∈ Radix.binary.marks ↔ c = 'b' ∨ c = 'B' := by
  simp [marks]

/-- The letters that mark some radix. -/
def markLetters : List Char := ['x', 'X', 'b', 'B']

theorem Radix.mem_markLetters {radix : Radix} {c : Char} (h : c ∈ radix.marks) :
    c ∈ markLetters := by
  cases radix with
  | hexadecimal => rcases mem_marks_hexadecimal.1 h with rfl | rfl <;> decide
  | binary => rcases mem_marks_binary.1 h with rfl | rfl <;> decide
  | decimal => cases h
  | octal => cases h

theorem digit?_of_mem_markLetters {c : Char} (h : c ∈ markLetters) : digit? 10 c = none := by
  simp only [markLetters, List.mem_cons, List.not_mem_nil, or_false] at h
  rcases h with rfl | rfl | rfl | rfl <;> rfl

/-- What may stand in front of the digits of a literal. -/
inductive Leads : Radix → List Char → List Char → Prop where
  /-- Nothing in front of a decimal literal, which has no zeros in front. -/
  | decimal {digits : List Char} (h : digits.head? = some '0' → digits = ['0']) :
    Leads .decimal [] digits
  /-- A zero and the mark of the radix. -/
  | marked {radix : Radix} {c : Char} {digits : List Char} (h : c ∈ radix.marks) :
    Leads radix ['0', c] digits
  /-- Nothing in front of an octal literal, which begins with a zero. -/
  | octal {c : Char} {digits : List Char} (h : ∀ radix : Radix, c ∉ radix.marks) :
    Leads .octal [] ('0' :: c :: digits)

/-- What may stand behind the digits of a literal. -/
def IsSuffix (suffix : List Char) : Prop := suffix = [] ∨ suffix = ['l'] ∨ suffix = ['L']

theorem leads_cutLead (body : List Char) :
    Leads (cutLead body).1 (cutLead body).2.1 (cutLead body).2.2 := by
  unfold cutLead
  split
  · next c cs =>
    split
    · next hx => exact .marked (Radix.mem_marks_hexadecimal.2 hx)
    split
    · next hb => exact .marked (Radix.mem_marks_binary.2 hb)
    · next hx hb =>
      refine .octal fun radix hmem => ?_
      cases radix with
      | hexadecimal => exact hx (Radix.mem_marks_hexadecimal.1 hmem)
      | binary => exact hb (Radix.mem_marks_binary.1 hmem)
      | decimal => cases hmem
      | octal => cases hmem
  · next hcs =>
    refine .decimal fun hhead => ?_
    cases body with
    | nil => cases hhead
    | cons c cs =>
      obtain rfl : c = '0' := Option.some.inj hhead
      cases cs with
      | nil => rfl
      | cons d cs => exact absurd rfl (hcs d cs)

theorem cutLead_append (body : List Char) :
    (cutLead body).2.1 ++ (cutLead body).2.2 = body := by
  unfold cutLead
  split
  · split
    · rfl
    · split <;> rfl
  · rfl

theorem Leads.cutLead_eq {radix : Radix} {lead digits : List Char} (h : Leads radix lead digits) :
    cutLead (lead ++ digits) = (radix, lead, digits) := by
  cases h with
  | decimal h =>
    show cutLead digits = _
    unfold cutLead
    split
    · next c cs => cases h rfl
    · rfl
  | @marked _ c digits h =>
    show cutLead ('0' :: c :: digits) = _
    cases radix with
    | hexadecimal => exact if_pos (Radix.mem_marks_hexadecimal.1 h)
    | binary => rcases Radix.mem_marks_binary.1 h with rfl | rfl <;> rfl
    | decimal => cases h
    | octal => cases h
  | @octal c digits h =>
    have hx : ¬ (c = 'x' ∨ c = 'X') := mt Radix.mem_marks_hexadecimal.2 (h .hexadecimal)
    have hb : ¬ (c = 'b' ∨ c = 'B') := mt Radix.mem_marks_binary.2 (h .binary)
    show (if c = 'x' ∨ c = 'X' then _ else if c = 'b' ∨ c = 'B' then _ else _) = _
    rw [if_neg hx, if_neg hb]

theorem isSuffix_cutSuffix (cs : List Char) : IsSuffix (cutSuffix cs).2 := by
  unfold cutSuffix IsSuffix
  split
  · exact .inr (.inl rfl)
  split
  · exact .inr (.inr rfl)
  · exact .inl rfl

theorem cutSuffix_append_cutSuffix (cs : List Char) :
    (cutSuffix cs).1 ++ (cutSuffix cs).2 = cs := by
  unfold cutSuffix
  split
  · next h =>
    obtain ⟨front, rfl⟩ := List.getLast?_eq_some_iff.1 h
    rw [List.dropLast_concat]
  split
  · next h =>
    obtain ⟨front, rfl⟩ := List.getLast?_eq_some_iff.1 h
    rw [List.dropLast_concat]
  · exact List.append_nil cs

theorem IsSuffix.cutSuffix_append {body suffix : List Char} (hsuffix : IsSuffix suffix)
    (hl : 'l' ∉ body) (hL : 'L' ∉ body) : cutSuffix (body ++ suffix) = (body, suffix) := by
  unfold cutSuffix
  rcases hsuffix with rfl | rfl | rfl
  · rw [List.append_nil, if_neg fun h => hl (List.mem_of_getLast? h),
      if_neg fun h => hL (List.mem_of_getLast? h)]
  · rw [if_pos List.getLast?_concat, List.dropLast_concat]
  · rw [if_neg (by simp), if_pos List.getLast?_concat, List.dropLast_concat]

theorem IsSuffix.not_mem_toDigits {suffix : List Char} (hsuffix : IsSuffix suffix) :
    ∀ c ∈ suffix, c ∉ Nat.toDigits 10 n := by
  rcases hsuffix with rfl | rfl | rfl
  · exact nofun
  · exact List.forall_mem_singleton.2 (Integer.not_mem_toDigits rfl)
  · exact List.forall_mem_singleton.2 (Integer.not_mem_toDigits rfl)

namespace Token

/-- The text of a token. -/
def text (t : Token) : List Char := t.lead ++ t.digits ++ t.suffix

/-- The parts of a token may stand next to each other. -/
structure Proper (t : Token) : Prop where
  /-- What stands in front of the digits. -/
  leads : Leads t.radix t.lead t.digits
  /-- What stands behind them. -/
  suffix : IsSuffix t.suffix

theorem proper_of (cs : List Char) : (Token.of cs).Proper :=
  ⟨leads_cutLead _, isSuffix_cutSuffix cs⟩

theorem text_of (cs : List Char) : (Token.of cs).text = cs := by
  show (cutLead (cutSuffix cs).1).2.1 ++ (cutLead (cutSuffix cs).1).2.2 ++ (cutSuffix cs).2 = cs
  rw [cutLead_append, cutSuffix_append_cutSuffix]

variable {t : Token}

theorem Proper.lead_eq (ht : t.Proper) : t.lead = [] ∨ ∃ c ∈ t.radix.marks, t.lead = ['0', c] := by
  obtain ⟨radix, lead, digits, suffix⟩ := t
  cases ht.leads with
  | decimal => exact .inl rfl
  | marked h => exact .inr ⟨_, h, rfl⟩
  | octal => exact .inl rfl

/-- Characters that mark no radix and are no zero stand nowhere in front of the digits. -/
theorem Proper.not_mem_lead (ht : t.Proper) {c : Char} (h : c ∉ '0' :: markLetters) :
    c ∉ t.lead := by
  rcases ht.lead_eq with hlead | ⟨m, hm, hlead⟩
  · rw [hlead]
    exact List.not_mem_nil
  · rw [hlead]
    intro hc
    rcases List.mem_cons.1 hc with rfl | hc
    · exact h List.mem_cons_self
    · rw [List.mem_singleton.1 hc] at h
      exact h (List.mem_cons_of_mem _ (Radix.mem_markLetters hm))

/-- A token is read back from its text. -/
theorem Proper.of_text (ht : t.Proper) (hl : 'l' ∉ t.digits) (hL : 'L' ∉ t.digits) :
    Token.of t.text = t := by
  have hbody : cutSuffix t.text = (t.lead ++ t.digits, t.suffix) := by
    refine ht.suffix.cutSuffix_append ?_ ?_
    · rw [List.mem_append, not_or]
      exact ⟨ht.not_mem_lead (by decide), hl⟩
    · rw [List.mem_append, not_or]
      exact ⟨ht.not_mem_lead (by decide), hL⟩
  unfold Token.of
  rw [hbody]
  simp only
  rw [ht.leads.cutLead_eq]

theorem bound_of_decimal (hradix : t.radix = .decimal) {negated : Bool} :
    t.bound negated = half t.isLong + negated.toNat := by
  rw [bound, hradix]

theorem bound_of_ne_decimal (hradix : t.radix ≠ .decimal) {negated : Bool} :
    t.bound negated = 2 * half t.isLong := by
  unfold bound
  split
  · next h => exact absurd h hradix
  · rfl

theorem bound_false_le (t : Token) : t.bound false ≤ 2 * half t.isLong := by
  by_cases hradix : t.radix = .decimal
  · rw [bound_of_decimal hradix, Bool.toNat_false]
    omega
  · exact Nat.le_of_eq (bound_of_ne_decimal hradix)

theorem value?_eq_some_iff {negated : Bool} {v : Literal} :
    t.value? negated = some v ↔ ∃ n, numeral? t.radix.base t.digits = some n ∧
      n < t.bound negated ∧ v = ofNumber t.isLong (if negated then -n else n) := by
  unfold value?
  rw [Option.bind_eq_some_iff]
  refine exists_congr fun n => and_congr_right fun _ => ?_
  by_cases hn : n < t.bound negated
  · rw [if_pos hn]
    exact ⟨fun h => ⟨hn, (Option.some.inj h).symm⟩, fun h => congrArg some h.2.symm⟩
  · rw [if_neg hn]
    exact ⟨nofun, fun h => absurd h.1 hn⟩

theorem not_mem_digits {negated : Bool} {v : Literal} {c : Char} (h : t.value? negated = some v)
    (hc : digit? t.radix.base c = none) (hne : c ≠ '_') : c ∉ t.digits := by
  intro hmem
  obtain ⟨n, hn, _⟩ := value?_eq_some_iff.1 h
  rw [numeral?_eq_none hmem hne hc] at hn
  cases hn

theorem Proper.minus_not_mem_text (ht : t.Proper) {negated : Bool} {v : Literal}
    (h : t.value? negated = some v) : '-' ∉ t.text := by
  unfold text
  rw [List.mem_append, List.mem_append]
  rintro ((hlead | hdigits) | hsuffix)
  · exact ht.not_mem_lead (by decide) hlead
  · exact not_mem_digits h rfl (by decide) hdigits
  · rcases ht.suffix with hs | hs | hs <;> rw [hs] at hsuffix <;> simp at hsuffix

end Token

/-! ## Decimal tokens -/

/-- A minus sign in front of a numeral is read as such. -/
theorem denotesSigned?_sign_append (negated : Bool) (n : Nat) (rest : List Char) :
    denotesSigned? (sign negated ++ (Nat.toDigits 10 n ++ rest)) =
      (Token.of (Nat.toDigits 10 n ++ rest)).value? negated := by
  cases negated with
  | true => rfl
  | false =>
    obtain ⟨c, cs, hcs⟩ := List.exists_cons_of_ne_nil Nat.toDigits_ne_nil (l := Nat.toDigits 10 n)
    have hc : c ≠ '-' := by
      rintro rfl
      exact not_mem_toDigits (n := n) rfl (hcs ▸ List.mem_cons_self)
    rw [hcs]
    show denotesSigned? (c :: (cs ++ rest)) = _
    unfold denotesSigned?
    split
    · next heq => exact absurd (List.cons.inj heq).1 hc
    · rfl

/-- A value spelled in front of other digits is read as a decimal token. -/
theorem denotesSigned?_spelling_append_append {v : Literal} (hv : HasWidth long v)
    {inner suffix : List Char} (hzero : v.number = 0 → inner = []) (hl : 'l' ∉ inner)
    (hL : 'L' ∉ inner) (hsuffix : IsSuffix suffix) :
    denotesSigned? (v.spelling ++ (inner ++ suffix)) =
      Token.value? (v.number < 0)
        ⟨.decimal, [], Nat.toDigits 10 v.number.natAbs ++ inner, suffix⟩ := by
  have ht : Token.Proper ⟨.decimal, [], Nat.toDigits 10 v.number.natAbs ++ inner, suffix⟩ := by
    refine ⟨.decimal fun hhead => ?_, hsuffix⟩
    by_cases hnumber : v.number = 0
    · rw [hzero hnumber, hnumber]
      rfl
    · obtain ⟨c, rest, heq, hc, _⟩ := exists_toDigits_eq_cons (Int.natAbs_ne_zero.2 hnumber)
      rw [heq] at hhead
      exact absurd (Option.some.inj hhead) hc
  have hof := ht.of_text (List.not_mem_append (not_mem_toDigits rfl) hl)
    (List.not_mem_append (not_mem_toDigits rfl) hL)
  rw [hv.spelling, List.append_assoc, denotesSigned?_sign_append, ← List.append_assoc]
  exact congrArg (Token.value? _) hof

/-- A value spelled in front of a suffix of its width denotes that value. -/
theorem denotesSigned?_spelling_append {v : Literal} {suffix : List Char}
    (hv : HasWidth (!suffix.isEmpty) v) (hsuffix : IsSuffix suffix) :
    denotesSigned? (v.spelling ++ suffix) = some v := by
  have hread := denotesSigned?_spelling_append_append hv (fun _ => rfl) List.not_mem_nil
    List.not_mem_nil hsuffix
  rw [List.nil_append, List.append_nil] at hread
  rw [hread, Token.value?_eq_some_iff]
  have hbounds := hv.bounds
  refine ⟨v.number.natAbs, numeral?_toDigits _, ?_, ?_⟩
  · show v.number.natAbs < half (!suffix.isEmpty) + (decide (v.number < 0)).toNat
    by_cases hneg : v.number < 0
    · rw [decide_eq_true hneg, Bool.toNat_true]
      omega
    · rw [decide_eq_false hneg, Bool.toNat_false]
      omega
  · have hnumber : (if decide (v.number < 0) = true then -(v.number.natAbs : Int)
        else v.number.natAbs) = v.number := by
      by_cases hneg : v.number < 0
      · rw [if_pos (decide_eq_true hneg)]
        omega
      · rw [if_neg (by simpa using hneg)]
        omega
    rw [hnumber]
    exact hv.ofNumber_number.symm

/-- A decimal token spells its value as a whole or not at all. -/
theorem Token.Proper.breakAt?_of_decimal {t : Token} (ht : t.Proper) (hradix : t.radix = .decimal)
    {n : Nat} (hn : numeral? 10 t.digits = some n) {before after : List Char}
    (h : Text.breakAt? (Nat.toDigits 10 n) t.text = some (before, after)) :
    before = [] ∧ t.digits = Nat.toDigits 10 n ∧ after = t.suffix := by
  obtain ⟨radix, lead, digits, suffix⟩ := t
  obtain rfl : radix = .decimal := hradix
  cases ht.leads with
  | marked h => cases h
  | decimal hzero =>
    rw [show Token.text ⟨.decimal, [], digits, suffix⟩ = digits ++ suffix from rfl,
      Text.breakAt?_append_right Nat.toDigits_ne_nil ht.suffix.not_mem_toDigits] at h
    obtain ⟨⟨front, back⟩, hcut, heq⟩ := Option.map_eq_some_iff.1 h
    obtain ⟨rfl, rfl⟩ := Prod.mk.inj heq
    have hdigits := Text.append_append_of_breakAt? hcut
    rw [← hdigits] at hn hzero
    obtain ⟨rfl, rfl⟩ := eq_nil_of_numeral? hn hzero
    exact ⟨rfl, by rw [← hdigits, List.nil_append, List.append_nil], rfl⟩

end Integer

end CallRefactor
