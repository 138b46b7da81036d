import CallRefactor.Literal.Edit
import CallRefactor.Proofs.Literal.Token

/-!
# Changing an integer token

The value of a token is looked up by its decimal spelling. A decimal token spells its value so as a
whole, and then the changed token denotes the changed value. A token of another radix may spell the
decimal digits of its value by accident; what is written in their place is read in the radix of the
token.

Main statements: `edit?_denotes_iff`, when the changed token denotes the changed value, and
`not_edit?_denotes`, a token where it does not.
-/

namespace CallRefactor

namespace Integer

variable {long : Bool} {t : Token} {v w : Literal}

/-! ## The value that is looked up -/

theorem HasWidth.locate? (h : HasWidth long v) (cs : List Char) :
    v.locate? cs = Text.breakAt? v.spelling cs := by
  cases h <;> rfl

theorem HasWidth.spelling_of_nonneg (h : HasWidth long v) (hv : 0 ≤ v.number) :
    v.spelling = Nat.toDigits 10 v.number.natAbs := by
  rw [h.spelling, decide_eq_false (by omega)]
  rfl

/-- A value that a token spells is not negative. -/
theorem HasWidth.nonneg_of_breakAt? (h : HasWidth long v) {cs : List Char} (hcs : '-' ∉ cs)
    {cut : List Char × List Char} (hcut : Text.breakAt? v.spelling cs = some cut) :
    0 ≤ v.number := by
  by_contra hneg
  apply hcs
  rw [← Text.append_append_of_breakAt? hcut, h.spelling, decide_eq_true (by omega)]
  simp [sign]

/-- The value of a token has its width, and the number of the token unless it is negative. No
decimal token has a negative value. -/
theorem Token.number_of_value? (h : t.value? false = some v) :
    HasWidth t.isLong v ∧ (t.radix = .decimal → 0 ≤ v.number) ∧
      (0 ≤ v.number → numeral? t.radix.base t.digits = some v.number.natAbs) := by
  obtain ⟨n, hn, hbound, rfl⟩ := Token.value?_eq_some_iff.1 h
  rw [if_neg Bool.false_ne_true]
  refine ⟨hasWidth_ofNumber _ _, fun hradix => ?_, fun hnonneg => ?_⟩
  · rw [bound_of_decimal hradix, Bool.toNat_false] at hbound
    rw [number_ofNumber (by omega) (by omega)]
    omega
  · have hlt : n < half t.isLong := by
      by_contra hge
      have hneg := number_ofNumber_neg (by omega) (Nat.lt_of_lt_of_le hbound t.bound_false_le)
      omega
    rw [number_ofNumber (by omega) (by omega), hn]
    rfl

/-- In a token of another radix, a value that is not negative is denoted by digits for its
number. -/
theorem Token.value?_eq_some_iff_numeral? (hradix : t.radix ≠ .decimal)
    (hw : HasWidth t.isLong w) (hnonneg : 0 ≤ w.number) :
    t.value? false = some w ↔ numeral? t.radix.base t.digits = some w.number.toNat := by
  have hbounds := hw.bounds
  constructor
  · intro h
    rw [(number_of_value? h).2.2 hnonneg]
    exact congrArg some (by omega)
  · intro hn
    refine value?_eq_some_iff.2 ⟨_, hn, ?_, ?_⟩
    · rw [bound_of_ne_decimal hradix]
      omega
    · rw [if_neg Bool.false_ne_true, Int.toNat_of_nonneg hnonneg]
      exact hw.ofNumber_number.symm

theorem minus_not_mem_of_denotes? {cs : List Char} (h : denotes? cs = some v) : '-' ∉ cs := by
  rw [← Token.text_of cs]
  exact (Token.proper_of cs).minus_not_mem_text h

/-- An integer value is changed where it is spelled. -/
theorem HasWidth.exists_of_edit? (h : HasWidth long v) {text : String} {span : Span}
    {transform : LiteralTransform} {e : Edit} (hedit : v.edit? text span transform = some e) :
    ∃ before after, Text.breakAt? v.spelling (Text.slice text span).toList = some (before, after) ∧
      (transform v).spelling ≠ v.spelling ∧
      e.replacement.toList = before ++ (transform v).spelling ++ after := by
  obtain ⟨before, after, hcut, hne, rfl⟩ := Literal.edit?_eq_some_iff.1 hedit
  rw [h.locate?] at hcut
  exact ⟨before, after, hcut, hne, String.toList_ofList⟩

/-! ## Tokens of other radixes -/

theorem Token.natAbs_of_value? (hradix : t.radix = .decimal) {negated : Bool} {n : Nat}
    (h : t.value? negated = some w) (hn : numeral? t.radix.base t.digits = some n) :
    w.number.natAbs = n := by
  obtain ⟨m, hm, hbound, rfl⟩ := Token.value?_eq_some_iff.1 h
  obtain rfl : n = m := Option.some.inj (hn.symm.trans hm)
  rw [bound_of_decimal hradix] at hbound
  have hpos := half_pos t.isLong
  cases negated with
  | false =>
    rw [Bool.toNat_false] at hbound
    rw [if_neg Bool.false_ne_true, number_ofNumber (by omega) (by omega)]
    omega
  | true =>
    rw [Bool.toNat_true] at hbound
    rw [if_pos rfl, number_ofNumber (by omega) (by omega)]
    omega

/-- A token of another radix begins with a zero. -/
theorem Token.Proper.exists_text_eq_cons (ht : t.Proper) (hradix : t.radix ≠ .decimal) :
    ∃ inner, t.lead ++ t.digits = '0' :: inner := by
  obtain ⟨radix, lead, digits, suffix⟩ := t
  cases ht.leads with
  | decimal => exact absurd rfl hradix
  | marked h => exact ⟨_, rfl⟩
  | octal h => exact ⟨_, rfl⟩

/-- In a token of another radix zero is spelled by the first character. No other value written there
is denoted by what comes out. -/
theorem Token.Proper.denotesSigned?_ne_of_zero (ht : t.Proper) (hradix : t.radix ≠ .decimal)
    (hzero : numeral? t.radix.base t.digits = some 0) (hw : HasWidth long w) (hne : w.number ≠ 0)
    {before after : List Char} (hcut : Text.breakAt? ['0'] t.text = some (before, after)) :
    denotesSigned? (before ++ w.spelling ++ after) ≠ some w := by
  intro h
  obtain ⟨inner, hinner⟩ := ht.exists_text_eq_cons hradix
  have htext : t.text = ['0'] ++ (inner ++ t.suffix) := by
    rw [Token.text, hinner]
    rfl
  rw [htext, Text.breakAt?_append_self] at hcut
  obtain ⟨rfl, rfl⟩ := Prod.mk.inj (Option.some.inj hcut)
  have hletter : ∀ c, c ∉ '0' :: markLetters → c ≠ '_' → digit? t.radix.base c = none →
      c ∉ inner := by
    intro c hlead hline hdigit hmem
    have hbody : c ∈ t.lead ++ t.digits := hinner ▸ List.mem_cons_of_mem '0' hmem
    rcases List.mem_append.1 hbody with hmem | hmem
    · exact ht.not_mem_lead hlead hmem
    · rw [numeral?_eq_none hmem hline hdigit] at hzero
      cases hzero
  rw [List.nil_append, denotesSigned?_spelling_append_append hw (fun h => absurd h hne)
    (hletter 'l' (by decide) (by decide) rfl) (hletter 'L' (by decide) (by decide) rfl)
    ht.suffix] at h
  obtain ⟨m, hm, _⟩ := Token.value?_eq_some_iff.1 h
  replace hm : numeral? 10 (Nat.toDigits 10 w.number.natAbs ++ inner) = some m := hm
  obtain ⟨radix, lead, digits, suffix⟩ := t
  cases ht.leads with
  | decimal => exact hradix rfl
  | @marked _ c _ hmark =>
    -- the mark of the radix is left behind the value, and is no decimal digit
    obtain rfl : c :: digits = inner := (List.cons.inj hinner).2
    have hmem := Radix.mem_markLetters hmark
    have hline : c ≠ '_' := fun heq => absurd (heq ▸ hmem) (by decide)
    rw [numeral?_eq_none (List.mem_append_right _ List.mem_cons_self) hline
      (digit?_of_mem_markLetters hmem)] at hm
    cases hm
  | @octal c rest _ =>
    -- the other zeros are left behind the value, and make it another one
    obtain rfl : c :: rest = inner := (List.cons.inj hinner).2
    obtain ⟨_, hlast, ds, _, hds, hsum⟩ := numeral?_eq_some_iff.1 hzero
    replace hds : digits? 8 ('0' :: c :: rest) = some ds := hds
    rw [digits?_cons (by decide)] at hds
    obtain ⟨ds, hrest, rfl⟩ := Option.map_eq_some_iff.1 hds
    rw [List.getLast?_cons_cons] at hlast
    refine numeral?_append_ne (Int.natAbs_ne_zero.2 hne) (by decide) (by decide) hrest
      (digits?_ne_nil (by decide) (List.cons_ne_nil _ _) hlast hrest) hsum ?_
    exact hm.trans (congrArg some (Token.natAbs_of_value? rfl h hm).symm)

/-- Behind the zero in front, decimal digits may stand in the place of others. -/
theorem Token.Proper.replace (ht : t.Proper) (hradix : t.radix ≠ .decimal)
    {front back rest rest' : List Char} {c c' : Char}
    (hdigits : front ++ (c :: rest ++ back) = t.digits) (hc : c ≠ '0')
    (hc' : digit? 10 c' ≠ none) :
    Token.Proper { t with digits := front ++ (c' :: rest' ++ back) } := by
  refine ⟨?_, ht.suffix⟩
  obtain ⟨radix, lead, digits, suffix⟩ := t
  obtain rfl : front ++ (c :: rest ++ back) = digits := hdigits
  generalize hcs : front ++ (c :: rest ++ back) = cs at ht
  cases ht.leads with
  | decimal => exact absurd rfl hradix
  | marked h => exact .marked h
  | @octal d digits hd =>
    -- the zero in front is none of the digits that are replaced
    cases front with
    | nil => exact absurd (List.cons.inj hcs).1 hc
    | cons e front =>
      obtain ⟨rfl, hrest⟩ := List.cons.inj hcs
      cases front with
      | nil =>
        exact .octal fun radix hmem => hc' (digit?_of_mem_markLetters (Radix.mem_markLetters hmem))
      | cons f front =>
        obtain ⟨rfl, _⟩ := List.cons.inj hrest
        exact .octal hd

/-- What stands in front of the digits of a positive number in a token of another radix begins with
a zero. -/
theorem Token.Proper.exists_front_eq_cons (ht : t.Proper) (hradix : t.radix ≠ .decimal)
    {front rest : List Char} {c : Char} (hdigits : front ++ c :: rest = t.digits) (hc : c ≠ '0') :
    ∃ tail, t.lead ++ front = '0' :: tail := by
  obtain ⟨inner, hinner⟩ := ht.exists_text_eq_cons hradix
  rw [← hdigits, ← List.append_assoc] at hinner
  cases hcs : t.lead ++ front with
  | nil =>
    rw [hcs] at hinner
    exact absurd (List.cons.inj hinner).1 hc
  | cons d tail =>
    rw [hcs] at hinner
    exact ⟨tail, by rw [(List.cons.inj hinner).1]⟩

/-- A token of another radix in which digits took the place of others is read with these digits. -/
theorem Token.Proper.of_replace (ht : t.Proper) (hradix : t.radix ≠ .decimal)
    (hvalue : t.value? false = some v) {front back rest : List Char} {c : Char}
    (hdigits : front ++ (c :: rest ++ back) = t.digits) (hc : c ≠ '0') (n : Nat) :
    Token.of (t.lead ++ front ++ Nat.toDigits 10 n ++ (back ++ t.suffix)) =
      { t with digits := front ++ (Nat.toDigits 10 n ++ back) } := by
  have hproper : Token.Proper { t with digits := front ++ (Nat.toDigits 10 n ++ back) } := by
    obtain ⟨c', rest', hspelling, hc'⟩ := exists_toDigits_eq_digit_cons n
    rw [hspelling]
    exact ht.replace hradix hdigits hc hc'
  have hletter : ∀ d, digit? t.radix.base d = none → digit? 10 d = none → d ≠ '_' →
      d ∉ front ++ (Nat.toDigits 10 n ++ back) := by
    intro d hd hten hline
    have hnot := not_mem_digits hvalue hd hline
    rw [← hdigits] at hnot
    have hnot' : d ∉ Nat.toDigits 10 n := not_mem_toDigits hten
    simp only [List.mem_append, not_or] at hnot ⊢
    exact ⟨hnot.1, hnot', hnot.2.2⟩
  have hof := hproper.of_text (hletter 'l' rfl rfl (by decide)) (hletter 'L' rfl rfl (by decide))
  have htext : Token.text { t with digits := front ++ (Nat.toDigits 10 n ++ back) } =
      t.lead ++ front ++ Nat.toDigits 10 n ++ (back ++ t.suffix) := by
    simp [text]
  rwa [htext] at hof

/-- **Changed digits are read in the radix of the token.** Where a token of another radix spells its
value by accident, the changed value is denoted if it is not negative and the digits that come out
stand for it in that radix. -/
theorem Token.Proper.denotesSigned?_replace_iff (ht : t.Proper) (hradix : t.radix ≠ .decimal)
    (hvalue : t.value? false = some v) (hv : 0 < v.number) (hw : HasWidth t.isLong w)
    {front back : List Char} (hdigits : front ++ (v.spelling ++ back) = t.digits) :
    denotesSigned? (t.lead ++ front ++ w.spelling ++ (back ++ t.suffix)) = some w ↔
      0 ≤ w.number ∧
        numeral? t.radix.base (front ++ (w.spelling ++ back)) = some w.number.toNat := by
  obtain ⟨hwidth, _, _⟩ := Token.number_of_value? hvalue
  obtain ⟨c, rest, hspelling, hc, _⟩ :=
    exists_toDigits_eq_cons (Int.natAbs_ne_zero.2 (by omega : v.number ≠ 0))
  rw [hwidth.spelling_of_nonneg (by omega), hspelling] at hdigits
  obtain ⟨tail, hfront⟩ := ht.exists_front_eq_cons hradix hdigits hc
  have hunsigned : denotesSigned? (t.lead ++ front ++ w.spelling ++ (back ++ t.suffix)) =
      denotes? (t.lead ++ front ++ w.spelling ++ (back ++ t.suffix)) := by
    rw [hfront]
    rfl
  rw [hunsigned]
  by_cases hneg : w.number < 0
  · -- the sign would stand behind the zero in front
    constructor
    · intro h
      have hminus := minus_not_mem_of_denotes? h
      rw [hw.spelling, decide_eq_true hneg] at hminus
      exact absurd (by simp [sign]) hminus
    · intro h
      omega
  · have hnonneg : 0 ≤ w.number := by omega
    rw [hw.spelling_of_nonneg hnonneg, denotes?, ht.of_replace hradix hvalue hdigits hc,
      and_iff_right hnonneg]
    exact value?_eq_some_iff_numeral? hradix hw hnonneg

/-- In a token of another radix a positive value is spelled by its digits. -/
theorem Token.Proper.breakAt?_text (ht : t.Proper) {n : Nat} (hn : n ≠ 0) :
    Text.breakAt? (Nat.toDigits 10 n) t.text =
      (Text.breakAt? (Nat.toDigits 10 n) t.digits).map fun (front, back) =>
        (t.lead ++ front, back ++ t.suffix) := by
  obtain ⟨c, rest, hspelling, hc, hdigit⟩ := exists_toDigits_eq_cons hn
  have hlead : c ∉ t.lead := by
    refine ht.not_mem_lead fun hmem => ?_
    rcases List.mem_cons.1 hmem with hzero | hmark
    · exact hc hzero
    · exact hdigit (digit?_of_mem_markLetters hmark)
  unfold text
  rw [List.append_assoc, hspelling, Text.breakAt?_append_left hlead, ← hspelling,
    Text.breakAt?_append_right Nat.toDigits_ne_nil ht.suffix.not_mem_toDigits, Option.map_map]
  rfl

/-- When a changed token of another radix denotes the changed value. -/
theorem Token.Proper.denotesSigned?_iff (ht : t.Proper) (hradix : t.radix ≠ .decimal)
    (hvalue : t.value? false = some v) (hw : HasWidth t.isLong w) (hne : w.spelling ≠ v.spelling)
    {before after : List Char} (hcut : Text.breakAt? v.spelling t.text = some (before, after)) :
    denotesSigned? (before ++ w.spelling ++ after) = some w ↔
      0 < v.number ∧ 0 ≤ w.number ∧
        ∃ front back, Text.breakAt? v.spelling t.digits = some (front, back) ∧
          numeral? t.radix.base (front ++ (w.spelling ++ back)) = some w.number.toNat := by
  obtain ⟨hv, _, hnumeral⟩ := Token.number_of_value? hvalue
  have hnonneg := hv.nonneg_of_breakAt? (ht.minus_not_mem_text hvalue) hcut
  by_cases hzero : v.number = 0
  · have hchanged : w.number ≠ 0 := by
      intro h
      rw [hw.spelling, hv.spelling, h, hzero] at hne
      exact hne rfl
    have hzero' := hnumeral hnonneg
    rw [hzero] at hzero'
    rw [hv.spelling_of_nonneg hnonneg, hzero] at hcut
    constructor
    · intro h
      exact absurd h (ht.denotesSigned?_ne_of_zero hradix hzero' hw hchanged hcut)
    · intro h
      omega
  · have hspelling := hv.spelling_of_nonneg hnonneg
    rw [hspelling, ht.breakAt?_text (Int.natAbs_ne_zero.2 hzero), ← hspelling] at hcut
    obtain ⟨⟨front, back⟩, hdigits, heq⟩ := Option.map_eq_some_iff.1 hcut
    obtain ⟨rfl, rfl⟩ := Prod.mk.inj heq
    rw [ht.denotesSigned?_replace_iff hradix hvalue (by omega) hw
      (Text.append_append_of_breakAt? hdigits), hdigits]
    constructor
    · rintro ⟨hchanged, hn⟩
      exact ⟨by omega, hchanged, front, back, rfl, hn⟩
    · rintro ⟨_, hchanged, _, _, heq, hn⟩
      obtain ⟨rfl, rfl⟩ := Prod.mk.inj (Option.some.inj heq)
      exact ⟨hchanged, hn⟩

end Integer

open Integer in
/-- **When a changed integer token denotes the changed value.** A decimal token always does, and is
left as it is unless its digits are the spelling of its value. A token of another radix does if its
digits spell a positive value by accident, the changed value is not negative, and what stands in
their place makes digits for it in the radix of the token. -/
theorem Literal.edit?_denotes_iff {text : String} {span : Span} {value : Literal}
    {transform : LiteralTransform} {e : Edit} {token : Token}
    (htoken : Token.of (Text.slice text span).toList = token)
    (hvalue : denotes? (Text.slice text span).toList = some value)
    (hwidth : value.SameWidth (transform value))
    (hedit : value.edit? text span transform = some e) :
    (token.radix = .decimal → token.digits = value.spelling) ∧
      (denotesSigned? e.replacement.toList = some (transform value) ↔
        token.radix = .decimal ∨
          0 < value.number ∧ 0 ≤ (transform value).number ∧
            ∃ front back, Text.breakAt? value.spelling token.digits = some (front, back) ∧
              numeral? token.radix.base (front ++ ((transform value).spelling ++ back)) =
                some (transform value).number.toNat) := by
  have ht : token.Proper := htoken ▸ Token.proper_of _
  have htext : token.text = (Text.slice text span).toList := htoken ▸ Token.text_of _
  replace hvalue : token.value? false = some value := htoken ▸ hvalue
  obtain ⟨hv, _, hnumeral⟩ := Token.number_of_value? hvalue
  have hw := hv.of_sameWidth hwidth
  obtain ⟨before, after, hcut, hne, hreplacement⟩ := hv.exists_of_edit? hedit
  rw [← htext] at hcut
  rw [hreplacement]
  by_cases hradix : token.radix = .decimal
  · have hnonneg := hv.nonneg_of_breakAt? (ht.minus_not_mem_text hvalue) hcut
    have hdecimal := hnumeral hnonneg
    rw [hradix] at hdecimal
    rw [hv.spelling_of_nonneg hnonneg] at hcut ⊢
    obtain ⟨rfl, hdigits, rfl⟩ := ht.breakAt?_of_decimal hradix hdecimal hcut
    exact ⟨fun _ => hdigits,
      ⟨fun _ => .inl hradix, fun _ => denotesSigned?_spelling_append hw ht.suffix⟩⟩
  · rw [ht.denotesSigned?_iff hradix hvalue hw hne hcut, or_iff_right hradix]
    exact ⟨fun h => absurd h hradix, Iff.rfl⟩

theorem Literal.edit?_denotes_iff_suffixed :
    (Literal.long 10).edit? "10L" ⟨0, 3, by decide⟩ (fun _ => .long (-10000)) =
        some ⟨⟨0, 3, by decide⟩, "-10000L"⟩ ∧
      Integer.denotesSigned? "-10000L".toList = some (.long (-10000)) := by
  have hedit : (Literal.long 10).edit? "10L" ⟨0, 3, by decide⟩ (fun _ => .long (-10000)) =
      some ⟨⟨0, 3, by decide⟩, "-10000L"⟩ := by decide +kernel
  have hdenotes := @Literal.edit?_denotes_iff "10L" ⟨0, 3, by decide⟩ (.long 10)
    (fun _ => .long (-10000)) _ _ rfl (by decide +kernel) trivial hedit
  exact ⟨hedit, hdenotes.2.2 (.inl rfl)⟩

/-- The transform that doubles integers of 32 bits. -/
def LiteralTransform.double : LiteralTransform
  | .int v => .int (2 * v)
  | value => value

/-- The token `0b1011` denotes eleven and has the digits `11` in it. Doubled, it is no integer
literal any more. -/
theorem Literal.not_edit?_denotes :
    Integer.denotes? "0b1011".toList = some (.int 11) ∧
      (Literal.int 11).SameWidth (LiteralTransform.double (.int 11)) ∧
      (Integer.Token.of "0b1011".toList).digits ≠ (Literal.int 11).spelling ∧
      ∃ e, (Literal.int 11).edit? "0b1011" ⟨0, 6, by decide⟩ LiteralTransform.double = some e ∧
        Integer.denotesSigned? e.replacement.toList ≠ some (LiteralTransform.double (.int 11)) := by
  have hedit : (Literal.int 11).edit? "0b1011" ⟨0, 6, by decide⟩ LiteralTransform.double =
      some ⟨⟨0, 6, by decide⟩, "0b1022"⟩ := by decide +kernel
  exact ⟨by decide +kernel, trivial, by decide +kernel, _, hedit, by decide +kernel⟩

end CallRefactor
