import Mathlib.Algebra.Group.Nat.Defs
import Mathlib.Data.List.Induction

/-!
# Numerals

The text of a number in some radix: digits, with low lines between them for the eye. A decimal
numeral without zeros in front is the one that the number is written as, but for its low lines.

Main statements: `numeral?_toDigits`, `toDigits_of_numeral?` and `eq_nil_of_numeral?`.
-/

namespace CallRefactor.Integer

variable {base base' d n : Nat} {c : Char} {cs p q : List Char} {ds : List Nat}

/-! ## Digits -/

/-- The value of a digit in a radix of up to sixteen. -/
def digit? (base : Nat) (c : Char) : Option Nat :=
  (("0123456789abcdef".toList.idxOf? c).or ("0123456789ABCDEF".toList.idxOf? c)).filter (· < base)

theorem digit?_lt (h : digit? base c = some d) : d < base := by
  have hd := (Option.filter_eq_some_iff.1 h).2
  simpa using hd

theorem digit?_of_le (hbase : base ≤ base') (h : digit? base c = some d) :
    digit? base' c = some d := by
  have hlt := digit?_lt h
  exact Option.filter_eq_some_iff.2
    ⟨(Option.filter_eq_some_iff.1 h).1, decide_eq_true (Nat.lt_of_lt_of_le hlt hbase)⟩

theorem digit?_digitChar (hd : d < 10) (hbase : d < base) :
    digit? base (Nat.digitChar d) = some d := by
  have hall : ∀ d < 10, "0123456789abcdef".toList.idxOf? (Nat.digitChar d) = some d := by decide
  exact Option.filter_eq_some_iff.2 ⟨by rw [hall d hd, Option.some_or], decide_eq_true hbase⟩

/-- A decimal digit is the character that its value is written as. -/
theorem eq_digitChar_of_digit? (h : digit? 10 c = some d) : c = Nat.digitChar d := by
  have hlower : ∀ d < 10, "0123456789abcdef".toList[d]? = some (Nat.digitChar d) := by decide
  have hupper : ∀ d < 10, "0123456789ABCDEF".toList[d]? = some (Nat.digitChar d) := by decide
  have hd := digit?_lt h
  obtain ⟨hor, _⟩ := Option.filter_eq_some_iff.1 h
  rcases Option.or_eq_some_iff.1 hor with hidx | ⟨_, hidx⟩
  · obtain ⟨hlt, rfl, _⟩ := List.idxOf?_eq_some_iff.1 hidx
    exact Option.some.inj ((List.getElem?_eq_getElem hlt).symm.trans (hlower d hd))
  · obtain ⟨hlt, rfl, _⟩ := List.idxOf?_eq_some_iff.1 hidx
    exact Option.some.inj ((List.getElem?_eq_getElem hlt).symm.trans (hupper d hd))

/-- The digits of a numeral, without the low lines between them. -/
def digits? (base : Nat) : List Char → Option (List Nat)
  | [] => some []
  | c :: cs =>
    if c = '_' then digits? base cs
    else (digit? base c).bind fun d => (digits? base cs).map (d :: ·)

theorem digits?_cons (hc : c ≠ '_') (cs : List Char) :
    digits? base (c :: cs) = (digit? base c).bind fun d => (digits? base cs).map (d :: ·) :=
  if_neg hc

theorem digits?_cons_eq_some_iff (hc : c ≠ '_') :
    digits? base (c :: cs) = some ds ↔
      ∃ d rest, digit? base c = some d ∧ digits? base cs = some rest ∧ d :: rest = ds := by
  rw [digits?_cons hc]
  constructor
  · intro h
    obtain ⟨d, hd, h⟩ := Option.bind_eq_some_iff.1 h
    obtain ⟨rest, hrest, heq⟩ := Option.map_eq_some_iff.1 h
    exact ⟨d, rest, hd, hrest, heq⟩
  · rintro ⟨d, rest, hd, hrest, rfl⟩
    rw [hd, hrest]
    rfl

theorem digits?_append (p q : List Char) :
    digits? base (p ++ q) = (digits? base p).bind fun ds => (digits? base q).map (ds ++ ·) := by
  induction p with
  | nil => exact Option.map_id'.symm
  | cons c p ih =>
    by_cases hc : c = '_'
    · subst hc
      exact ih
    · rw [List.cons_append, digits?_cons hc, digits?_cons hc, ih]
      cases digit? base c with
      | none => rfl
      | some d =>
        cases digits? base p with
        | none => rfl
        | some ds => cases digits? base q <;> rfl

theorem exists_digit (h : digits? base cs = some ds) (hc : c ∈ cs) (hne : c ≠ '_') :
    ∃ d, digit? base c = some d := by
  obtain ⟨p, q, rfl⟩ := List.append_of_mem hc
  rw [digits?_append] at h
  obtain ⟨_, _, h⟩ := Option.bind_eq_some_iff.1 h
  obtain ⟨_, h, _⟩ := Option.map_eq_some_iff.1 h
  obtain ⟨d, _, hd, _⟩ := (digits?_cons_eq_some_iff hne).1 h
  exact ⟨d, hd⟩

theorem digits?_eq_none (hc : c ∈ cs) (hne : c ≠ '_') (h : digit? base c = none) :
    digits? base cs = none := by
  rw [Option.eq_none_iff_forall_not_mem]
  intro ds hds
  obtain ⟨d, hd⟩ := exists_digit hds hc hne
  rw [h] at hd
  cases hd

theorem digits?_of_le (hbase : base ≤ base') (h : digits? base cs = some ds) :
    digits? base' cs = some ds := by
  induction cs generalizing ds with
  | nil => exact h
  | cons c cs ih =>
    by_cases hc : c = '_'
    · subst hc
      exact ih (show digits? base cs = some ds from h)
    · obtain ⟨d, rest, hd, hrest, heq⟩ := (digits?_cons_eq_some_iff hc).1 h
      exact (digits?_cons_eq_some_iff hc).2 ⟨d, rest, digit?_of_le hbase hd, ih hrest, heq⟩

theorem lt_of_mem_digits? (h : digits? base cs = some ds) : ∀ d ∈ ds, d < base := by
  induction cs generalizing ds with
  | nil =>
    obtain rfl : [] = ds := Option.some.inj h
    exact nofun
  | cons c cs ih =>
    by_cases hc : c = '_'
    · subst hc
      exact ih (show digits? base cs = some ds from h)
    · obtain ⟨d, rest, hd, hrest, rfl⟩ := (digits?_cons_eq_some_iff hc).1 h
      exact List.forall_mem_cons.2 ⟨digit?_lt hd, ih hrest⟩

/-- Without their low lines, decimal digits are the characters that their values are written as. -/
theorem filter_eq_map_digitChar (h : digits? 10 cs = some ds) :
    cs.filter (· ≠ '_') = ds.map Nat.digitChar := by
  induction cs generalizing ds with
  | nil =>
    obtain rfl : [] = ds := Option.some.inj h
    rfl
  | cons c cs ih =>
    by_cases hc : c = '_'
    · subst hc
      exact ih (show digits? 10 cs = some ds from h)
    · obtain ⟨d, rest, hd, hrest, rfl⟩ := (digits?_cons_eq_some_iff hc).1 h
      rw [List.filter_cons_of_pos (by simpa using hc), ih hrest, List.map_cons,
        eq_digitChar_of_digit? hd]

theorem digits?_map_digitChar (h : ∀ d ∈ ds, d < 10) :
    digits? 10 (ds.map Nat.digitChar) = some ds := by
  have hne : ∀ d < 10, Nat.digitChar d ≠ '_' := by decide
  induction ds with
  | nil => rfl
  | cons d ds ih =>
    obtain ⟨hd, hds⟩ := List.forall_mem_cons.1 h
    exact (digits?_cons_eq_some_iff (hne d hd)).2 ⟨d, ds, digit?_digitChar hd hd, ih hds, rfl⟩

/-! ## Positions -/

/-- The number that digits stand for, the most significant one first. -/
def positional (base : Nat) (ds : List Nat) : Nat := ds.foldl (fun n d => base * n + d) 0

theorem positional_concat (base : Nat) (ds : List Nat) (d : Nat) :
    positional base (ds ++ [d]) = base * positional base ds + d := by
  simp [positional]

/-- Zeros behind multiply a number by powers of the radix. -/
theorem positional_append_replicate (base : Nat) (ds : List Nat) (count : Nat) :
    positional base (ds ++ List.replicate count 0) = positional base ds * base ^ count := by
  induction count with
  | zero => simp
  | succ count ih =>
    rw [List.replicate_succ', ← List.append_assoc, positional_concat, ih, Nat.add_zero,
      Nat.pow_succ, Nat.mul_comm base, Nat.mul_assoc]

theorem eq_replicate_of_positional_eq_zero (hbase : 0 < base) (h : positional base ds = 0) :
    ds = List.replicate ds.length 0 := by
  induction ds using List.reverseRecOn with
  | nil => rfl
  | append_singleton ds d ih =>
    rw [positional_concat] at h
    have hd : d = 0 := by omega
    have hds : positional base ds = 0 := by
      have hmul : base * positional base ds = 0 := by omega
      exact (Nat.mul_eq_zero.1 hmul).resolve_left (by omega)
    rw [List.length_append, List.length_singleton, List.replicate_succ', ← ih hds, hd]

/-- Decimal digits without a zero in front are those that their number is written with. -/
theorem toDigits_positional (hne : ds ≠ []) (hlt : ∀ d ∈ ds, d < 10)
    (hzero : ds.head? = some 0 → ds = [0]) :
    Nat.toDigits 10 (positional 10 ds) = ds.map Nat.digitChar := by
  induction ds using List.reverseRecOn with
  | nil => exact absurd rfl hne
  | append_singleton ds d ih =>
    have hd : d < 10 := hlt d (by simp)
    rw [positional_concat]
    cases ds with
    | nil =>
      show Nat.toDigits 10 (10 * 0 + d) = [Nat.digitChar d]
      rw [Nat.mul_zero, Nat.zero_add, Nat.toDigits_of_lt_base hd]
    | cons e ds =>
      have he : e ≠ 0 := by
        rintro rfl
        exact absurd (congrArg List.length (hzero rfl)) (by simp)
      have hfront := ih (List.cons_ne_nil e ds) (fun d hd => hlt d (List.mem_append_left _ hd))
        fun h => absurd (Option.some.inj h) he
      -- the digits in front are no single zero, so they stand for a positive number
      have hpos : positional 10 (e :: ds) ≠ 0 := by
        intro h
        have hmem : e ∈ List.replicate (e :: ds).length 0 :=
          eq_replicate_of_positional_eq_zero (by omega) h ▸ List.mem_cons_self
        exact he (List.eq_of_mem_replicate hmem)
      rw [Nat.toDigits_of_base_le (by omega) (by omega), List.map_append, ← hfront]
      have hdiv : (10 * positional 10 (e :: ds) + d) / 10 = positional 10 (e :: ds) := by omega
      have hmod : (10 * positional 10 (e :: ds) + d) % 10 = d := by omega
      rw [hdiv, hmod]
      rfl

/-- Every number has decimal digits, without a zero in front. -/
theorem exists_positional (n : Nat) :
    ∃ ds : List Nat, ds ≠ [] ∧ (∀ d ∈ ds, d < 10) ∧ (ds.head? = some 0 → ds = [0]) ∧
      positional 10 ds = n := by
  induction n using Nat.strongRecOn with
  | ind n ih =>
    by_cases hn : n < 10
    · refine ⟨[n], List.cons_ne_nil _ _, List.forall_mem_singleton.2 hn, ?_, ?_⟩
      · intro h
        rw [Option.some.inj h]
      · simp [positional]
    · obtain ⟨ds, hne, hlt, hzero, hds⟩ := ih (n / 10) (by omega)
      refine ⟨ds ++ [n % 10], by simp, ?_, ?_, ?_⟩
      · intro d hd
        rcases List.mem_append.1 hd with hd | hd
        · exact hlt d hd
        · rw [List.mem_singleton.1 hd]
          omega
      · intro h
        obtain ⟨d, ds, rfl⟩ := List.exists_cons_of_ne_nil hne
        rw [hzero h] at hds
        have hzero' : positional 10 [0] = 0 := rfl
        omega
      · rw [positional_concat, hds]
        omega

theorem exists_toDigits_eq (n : Nat) :
    ∃ ds : List Nat, ds ≠ [] ∧ (∀ d ∈ ds, d < 10) ∧ (ds.head? = some 0 → ds = [0]) ∧
      positional 10 ds = n ∧ Nat.toDigits 10 n = ds.map Nat.digitChar := by
  obtain ⟨ds, hne, hlt, hzero, rfl⟩ := exists_positional n
  exact ⟨ds, hne, hlt, hzero, rfl, toDigits_positional hne hlt hzero⟩

/-- What a positive number is written as begins with a digit other than zero. -/
theorem exists_toDigits_eq_cons (hn : n ≠ 0) :
    ∃ c rest, Nat.toDigits 10 n = c :: rest ∧ c ≠ '0' ∧ digit? 10 c ≠ none := by
  have hall : ∀ d < 10, d ≠ 0 → Nat.digitChar d ≠ '0' := by decide
  obtain ⟨ds, hne, hlt, hzero, rfl, heq⟩ := exists_toDigits_eq n
  rw [heq]
  obtain ⟨d, ds, rfl⟩ := List.exists_cons_of_ne_nil hne
  have hd : d < 10 := hlt d List.mem_cons_self
  refine ⟨Nat.digitChar d, ds.map Nat.digitChar, rfl, hall d hd ?_, ?_⟩
  · rintro rfl
    rw [hzero rfl] at hn
    exact hn rfl
  · rw [digit?_digitChar hd hd]
    exact Option.some_ne_none d

theorem exists_digits?_toDigits (n : Nat) :
    ∃ ds : List Nat, ds ≠ [] ∧ digits? 10 (Nat.toDigits 10 n) = some ds ∧ positional 10 ds = n := by
  obtain ⟨ds, hne, hlt, _, hsum, heq⟩ := exists_toDigits_eq n
  exact ⟨ds, hne, heq ▸ digits?_map_digitChar hlt, hsum⟩

/-! ## Numerals -/

/-- The number that a numeral stands for. A low line stands between digits. -/
def numeral? (base : Nat) (cs : List Char) : Option Nat :=
  if cs.head? = some '_' ∨ cs.getLast? = some '_' then none
  else (digits? base cs).bind fun ds => if ds = [] then none else some (positional base ds)

theorem numeral?_eq_some_iff :
    numeral? base cs = some n ↔ cs.head? ≠ some '_' ∧ cs.getLast? ≠ some '_' ∧
      ∃ ds, ds ≠ [] ∧ digits? base cs = some ds ∧ positional base ds = n := by
  unfold numeral?
  by_cases hends : cs.head? = some '_' ∨ cs.getLast? = some '_'
  · rw [if_pos hends]
    refine ⟨nofun, fun h => ?_⟩
    rcases hends with hhead | hlast
    · exact absurd hhead h.1
    · exact absurd hlast h.2.1
  · rw [if_neg hends, Option.bind_eq_some_iff]
    obtain ⟨hhead, hlast⟩ := not_or.1 hends
    constructor
    · rintro ⟨ds, hds, h⟩
      by_cases hne : ds = []
      · rw [if_pos hne] at h
        cases h
      · rw [if_neg hne] at h
        exact ⟨hhead, hlast, ds, hne, hds, Option.some.inj h⟩
    · rintro ⟨_, _, ds, hne, hds, rfl⟩
      exact ⟨ds, hds, if_neg hne⟩

theorem numeral?_eq_none (hc : c ∈ cs) (hne : c ≠ '_') (h : digit? base c = none) :
    numeral? base cs = none := by
  unfold numeral?
  rw [digits?_eq_none hc hne h, Option.bind_none, ite_self]

theorem not_mem_toDigits (h : digit? 10 c = none) : c ∉ Nat.toDigits 10 n := by
  intro hc
  obtain ⟨ds, _, hlt, _, _, heq⟩ := exists_toDigits_eq n
  rw [heq] at hc
  obtain ⟨d, hd, rfl⟩ := List.mem_map.1 hc
  rw [digit?_digitChar (hlt d hd) (hlt d hd)] at h
  cases h

theorem exists_toDigits_eq_digit_cons (n : Nat) :
    ∃ c rest, Nat.toDigits 10 n = c :: rest ∧ digit? 10 c ≠ none := by
  obtain ⟨c, rest, hcs⟩ := List.exists_cons_of_ne_nil (Nat.toDigits_ne_nil (n := n) (b := 10))
  exact ⟨c, rest, hcs, fun h => not_mem_toDigits (n := n) h (hcs ▸ List.mem_cons_self)⟩

/-- What a number is written as is a numeral for it. -/
theorem numeral?_toDigits (n : Nat) : numeral? 10 (Nat.toDigits 10 n) = some n := by
  have hline : '_' ∉ Nat.toDigits 10 n := not_mem_toDigits rfl
  exact numeral?_eq_some_iff.2 ⟨fun h => hline (List.mem_of_head? h),
    fun h => hline (List.mem_of_getLast? h), exists_digits?_toDigits n⟩

/-- Without its low lines, a decimal numeral with no zero in front is what its number is written
as. -/
theorem toDigits_of_numeral? (h : numeral? 10 cs = some n)
    (hzero : cs.head? = some '0' → cs = ['0']) :
    cs.filter (· ≠ '_') = Nat.toDigits 10 n := by
  obtain ⟨hhead, _, ds, hne, hds, rfl⟩ := numeral?_eq_some_iff.1 h
  rw [filter_eq_map_digitChar hds, toDigits_positional hne (lt_of_mem_digits? hds)]
  intro hd
  cases cs with
  | nil => exact absurd (Option.some.inj hds).symm hne
  | cons c cs =>
    obtain ⟨d, rest, hc, hrest, rfl⟩ :=
      (digits?_cons_eq_some_iff fun hc => hhead (congrArg some hc)).1 hds
    obtain rfl : d = 0 := Option.some.inj hd
    obtain rfl : c = '0' := eq_digitChar_of_digit? hc
    obtain ⟨_, rfl⟩ := List.cons.inj (hzero rfl)
    rw [← Option.some.inj hrest]

/-- Low lines that do not begin with a low line are none. -/
theorem eq_nil_of_head? (h : cs.filter (· ≠ '_') = []) (hhead : cs.head? ≠ some '_') : cs = [] := by
  cases cs with
  | nil => rfl
  | cons c cs =>
    have hc : c = '_' := by simpa using List.filter_eq_nil_iff.1 h c List.mem_cons_self
    exact absurd (congrArg some hc) hhead

/-- Low lines that do not end with a low line are none. -/
theorem eq_nil_of_getLast? (h : cs.filter (· ≠ '_') = []) (hlast : cs.getLast? ≠ some '_') :
    cs = [] := by
  cases hcs : cs.getLast? with
  | none => exact List.getLast?_eq_none_iff.1 hcs
  | some c =>
    have hc : c = '_' := by
      simpa using List.filter_eq_nil_iff.1 h c (List.mem_of_getLast? hcs)
    exact absurd (hcs.trans (congrArg some hc)) hlast

/-- A text that does not end with a low line has digits. -/
theorem digits?_ne_nil (hbase : base ≤ 10) (hne : cs ≠ []) (hlast : cs.getLast? ≠ some '_')
    (h : digits? base cs = some ds) : ds ≠ [] := by
  rintro rfl
  exact hne (eq_nil_of_getLast? (filter_eq_map_digitChar (digits?_of_le hbase h)) hlast)

/-- Zeros behind the digits of a positive number make another number. -/
theorem numeral?_append_ne (hn : n ≠ 0) (hbase : 0 < base) (hle : base ≤ 10)
    (hds : digits? base cs = some ds) (hne : ds ≠ []) (hsum : positional base ds = 0) :
    numeral? 10 (Nat.toDigits 10 n ++ cs) ≠ some n := by
  intro h
  obtain ⟨_, _, all, _, hall, heq⟩ := numeral?_eq_some_iff.1 h
  obtain ⟨front, _, hfront, hfrontSum⟩ := exists_digits?_toDigits n
  rw [digits?_append, hfront, digits?_of_le hle hds] at hall
  obtain rfl : front ++ ds = all := Option.some.inj hall
  -- the digits behind are zeros, whatever their radix, and multiply the number
  rw [eq_replicate_of_positional_eq_zero hbase hsum, positional_append_replicate,
    hfrontSum] at heq
  have hlength : 0 < ds.length := List.length_pos_iff.2 hne
  have hpow : 1 < 10 ^ ds.length := Nat.one_lt_pow (by omega) (by omega)
  have hlt : n * 1 < n * 10 ^ ds.length := Nat.mul_lt_mul_of_pos_left hpow (Nat.pos_of_ne_zero hn)
  omega

/-- A decimal numeral with no zero in front that holds what its number is written as holds nothing
else. -/
theorem eq_nil_of_numeral? {front back : List Char}
    (h : numeral? 10 (front ++ (Nat.toDigits 10 n ++ back)) = some n)
    (hzero : (front ++ (Nat.toDigits 10 n ++ back)).head? = some '0' →
      front ++ (Nat.toDigits 10 n ++ back) = ['0']) :
    front = [] ∧ back = [] := by
  obtain ⟨hhead, hlast, _⟩ := numeral?_eq_some_iff.1 h
  -- what stands around the digits is made of low lines
  have hfilter := toDigits_of_numeral? h hzero
  have hline : (Nat.toDigits 10 n).filter (· ≠ '_') = Nat.toDigits 10 n := by
    rw [List.filter_eq_self]
    intro c hc
    have hne : c ≠ '_' := fun heq => not_mem_toDigits rfl (heq ▸ hc)
    simpa using hne
  rw [List.filter_append, List.filter_append, hline] at hfilter
  have hlengths := congrArg List.length hfilter
  rw [List.length_append, List.length_append] at hlengths
  have hfront : front.filter (· ≠ '_') = [] := List.length_eq_zero_iff.1 (by omega)
  have hback : back.filter (· ≠ '_') = [] := List.length_eq_zero_iff.1 (by omega)
  refine ⟨eq_nil_of_head? hfront fun heq => hhead ?_, eq_nil_of_getLast? hback fun heq => hlast ?_⟩
  · rw [List.head?_append, heq, Option.some_or]
  · rw [List.getLast?_append, List.getLast?_append, heq, Option.some_or, Option.some_or]

end CallRefactor.Integer
