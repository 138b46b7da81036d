import CallRefactor.Literal.Edit
import CallRefactor.Proofs.Literal.Unescape

/-!
# Escapes are read back

How a character is escaped depends on the quote and on the character that follows. Each way is read
back as the character wherever the run of backslashes in front is even, and leaves such a run
behind. A null in its short form also needs that no octal digit comes next; none does, since only an
octal digit is written with an octal digit in front. So a whole text is read back, and different
texts are spelled in different ways.

Main statement: `Literal.unescape_spelling`.
-/

namespace CallRefactor

variable {quote c : Char} {next : Option Char} {piece cs : List Char} {n : Nat}

/-! ## Escaped characters -/

/-- The quotes around the tokens of strings and characters. -/
def IsQuote (quote : Char) : Prop := quote = '"' ∨ quote = '\''

theorem IsQuote.ne_backslash (h : IsQuote quote) : quote ≠ '\\' := by
  rcases h with rfl | rfl <;> decide

theorem IsQuote.toNat_eq (h : IsQuote quote) : quote.toNat = 34 ∨ quote.toNat = 39 :=
  h.imp (congrArg Char.toNat) (congrArg Char.toNat)

/-- How a character stands in a token with the given quote, before `next`. -/
inductive Escaped (quote c : Char) (next : Option Char) : List Char → Prop where
  /-- For itself. -/
  | plain (hslash : c ≠ '\\') (hquote : c ≠ quote) (hcontrol : Unicode.isControl c = false) :
    Escaped quote c next [c]
  /-- Behind a backslash, as a letter or as itself. -/
  | letter {letter : Char} (h : (letter, c) ∈ letterEscapes) : Escaped quote c next ['\\', letter]
  /-- As an octal escape of one digit. -/
  | null (hc : c = '\x00') (hnext : next.any isOctalDigit = false) :
    Escaped quote c next ['\\', '0']
  /-- As a Unicode escape. -/
  | unicode (hcontrol : Unicode.isControl c = true) (hline : c ≠ '\n') (hreturn : c ≠ '\r') :
    Escaped quote c next ('\\' :: 'u' :: Text.hex4 c.toNat)

theorem escaped_escapeChar (hquote : IsQuote quote) (c : Char) (next : Option Char) :
    Escaped quote c next (escapeChar quote c next) := by
  unfold escapeChar
  split
  · exact .letter (by decide)
  · exact .letter (by decide)
  · exact .letter (by decide)
  · exact .letter (by decide)
  · exact .letter (by decide)
  · exact .letter (by decide)
  · next hslash hline hreturn _ _ _ =>
    split
    · next h => exact .null h.1 (by simpa using h.2)
    split
    · next hc =>
      subst hc
      rcases hquote with rfl | rfl
      · exact .letter (by decide)
      · exact .letter (by decide)
    split
    · next hcontrol => exact .unicode hcontrol hline hreturn
    · next hc hcontrol => exact .plain hslash hc (by simpa using hcontrol)

theorem letterEscapes_ordinary : ∀ e ∈ letterEscapes,
    e.1 ≠ 'u' ∧ Text.utf16Char e.1 = [e.1.toNat] ∧ Text.utf16Char e.2 = [e.2.toNat] := by decide

theorem mem_hex4 (h : c ∈ Text.hex4 n) : ∃ d < 16, c = Text.hexDigit d := by
  simp only [Text.hex4, List.mem_cons, List.not_mem_nil, or_false] at h
  rcases h with rfl | rfl | rfl | rfl <;> exact ⟨_, Nat.mod_lt _ (by decide), rfl⟩

theorem hexDigit_ordinary : ∀ d < 16, Unicode.isControl (Text.hexDigit d) = false ∧
    Text.hexDigit d ∉ ['\\', '"', '\''] := by decide

theorem backslash_not_mem_hex4 : '\\' ∉ Text.hex4 n := by
  intro hmem
  obtain ⟨d, hd, heq⟩ := mem_hex4 hmem
  exact absurd (heq ▸ List.mem_cons_self) (hexDigit_ordinary d hd).2

theorem isControl_iff : Unicode.isControl c = true ↔
    c.toNat < 0x20 ∨ 0x7F ≤ c.toNat ∧ c.toNat ≤ 0x9F := by
  simp [Unicode.isControl]

namespace Escaped

/-- An escaped character has no control characters. -/
theorem isControl_eq_false (h : Escaped quote c next piece) :
    ∀ d ∈ piece, Unicode.isControl d = false := by
  cases h with
  | plain _ _ hcontrol => exact List.forall_mem_singleton.2 hcontrol
  | letter h =>
    have hletter : ∀ e ∈ letterEscapes, Unicode.isControl e.1 = false := by decide
    exact List.forall_mem_cons.2 ⟨rfl, List.forall_mem_singleton.2 (hletter _ h)⟩
  | null => exact List.forall_mem_cons.2 ⟨rfl, List.forall_mem_singleton.2 rfl⟩
  | unicode =>
    intro d hd
    simp only [List.mem_cons] at hd
    rcases hd with rfl | rfl | hd
    · rfl
    · rfl
    · obtain ⟨k, hk, rfl⟩ := mem_hex4 hd
      exact (hexDigit_ordinary k hk).1

/-- Where the quote stands in an escaped character, it stands behind a backslash. -/
theorem eq_of_quote_mem (hquote : IsQuote quote) (h : Escaped quote c next piece)
    (hmem : quote ∈ piece) : piece = ['\\', quote] := by
  have hslash := hquote.ne_backslash
  have hother : quote ≠ '0' ∧ quote ≠ 'u' ∧ quote ∈ ['\\', '"', '\''] := by
    rcases hquote with rfl | rfl <;> decide
  obtain ⟨hzero, hu, hordinary⟩ := hother
  cases h with
  | plain _ hne => exact absurd (List.mem_singleton.1 hmem).symm hne
  | letter =>
    rcases List.mem_cons.1 hmem with heq | hmem
    · exact absurd heq hslash
    · rw [List.mem_singleton.1 hmem]
  | null => simp [hslash, hzero] at hmem
  | unicode =>
    simp only [List.mem_cons, hslash, hu, false_or] at hmem
    obtain ⟨d, hd, rfl⟩ := mem_hex4 hmem
    exact absurd hordinary (hexDigit_ordinary d hd).2

/-- In front of the quote the backslashes in a row are odd in number. -/
theorem slashes_odd (hquote : IsQuote quote) (hn : n % 2 = 0)
    {before after : List Char} (h : Escaped quote c next (before ++ quote :: after)) :
    slashes n before % 2 = 1 := by
  have heq := h.eq_of_quote_mem hquote (List.mem_append_right _ List.mem_cons_self)
  rcases before with _ | ⟨d, _ | ⟨e, before⟩⟩
  · exact absurd (List.cons.inj heq).1 hquote.ne_backslash
  · rw [(List.cons.inj heq).1]
    show (n + 1) % 2 = 1
    omega
  · simp at heq

/-- Behind an escaped character the backslashes in a row are even in number. -/
theorem slashes_even (h : Escaped quote c next piece) (hn : n % 2 = 0) :
    slashes n piece % 2 = 0 := by
  cases h with
  | plain hslash => simp [slashes, hslash]
  | @letter letter =>
    simp only [slashes, if_true]
    split <;> omega
  | null => rfl
  | unicode =>
    show slashes 0 (Text.hex4 c.toNat) % 2 = 0
    rw [slashes_zero backslash_not_mem_hex4]

theorem translate_plain (hslash : c ≠ '\\') (n : Nat) (rest : List Char) :
    translate n ([c] ++ rest) = Text.utf16Char c ++ translate (slashes n [c]) rest := by
  have hzero : slashes n [c] = 0 := if_neg hslash
  rw [hzero]
  exact translate_of_ne hslash n rest

theorem translate_unicode (hcontrol : Unicode.isControl c = true) (hn : n % 2 = 0)
    (rest : List Char) :
    translate n ('\\' :: 'u' :: Text.hex4 c.toNat ++ rest) = c.toNat ::
      translate (slashes n ('\\' :: 'u' :: Text.hex4 c.toNat)) rest := by
  have hlt : c.toNat < 0x10000 := by
    have hbounds := isControl_iff.1 hcontrol
    omega
  have hzero : slashes n ('\\' :: 'u' :: Text.hex4 c.toNat) = 0 :=
    slashes_zero backslash_not_mem_hex4
  rw [hzero]
  exact translate_of_unicodeEscape? hn (unicodeEscape?_hex4 hlt rest)

/-- Only an octal digit is written with an octal digit in front. -/
theorem octalDigit?_head? (h : Escaped quote c next piece) (hn : n % 2 = 0)
    (hc : isOctalDigit c = false) (rest : List Char) :
    ∀ unit ∈ (translate n (piece ++ rest)).head?, octalDigit? unit = none := by
  intro unit hunit
  cases h with
  | plain hslash =>
    rw [translate_plain hslash,
      List.head?_append_of_ne_nil (Text.utf16Char c) (Text.utf16Char_ne_nil c)] at hunit
    rcases Text.mem_utf16Char (List.mem_of_head? hunit) with rfl | hge
    · exact octalDigit?_toNat hc
    · exact octalDigit?_eq_none_iff.2 (by omega)
  | letter h =>
    rw [translate_slash_append hn (letterEscapes_ordinary _ h).1] at hunit
    rw [← Option.some.inj hunit]
    rfl
  | null =>
    rw [translate_slash_append hn (by decide)] at hunit
    rw [← Option.some.inj hunit]
    rfl
  | unicode hcontrol =>
    rw [translate_unicode hcontrol hn] at hunit
    obtain rfl : c.toNat = unit := Option.some.inj hunit
    exact octalDigit?_toNat hc

/-- An escaped character is read back, if no octal digit follows a null in its short form. -/
theorem readEscapes (hquote : IsQuote quote) (h : Escaped quote c next piece)
    (hn : n % 2 = 0) {rest : List Char}
    (hrest : next.any isOctalDigit = false →
      ∀ unit ∈ (translate (slashes n piece) rest).head?, octalDigit? unit = none) :
    readEscapes quote.toNat (translate n (piece ++ rest)) =
      (readEscapes quote.toNat (translate (slashes n piece) rest)).map
        (Text.utf16Char c ++ ·) := by
  have hbound := hquote.toNat_eq
  cases h with
  | plain hslash hne hcontrol =>
    rw [translate_plain hslash]
    refine readEscapes_of_isPlain (fun unit hunit => ?_) _
    have hordinary := mt isControl_iff.2 (Bool.eq_false_iff.1 hcontrol)
    rcases Text.mem_utf16Char hunit with rfl | hge
    · exact ⟨mt Char.toNat_inj.1 hslash, mt Char.toNat_inj.1 hne,
        show c.toNat ≠ 10 by omega, show c.toNat ≠ 13 by omega⟩
    · exact ⟨show unit ≠ 92 by omega, by omega, show unit ≠ 10 by omega, show unit ≠ 13 by omega⟩
  | letter h =>
    obtain ⟨hu, hletter, hc⟩ := letterEscapes_ordinary _ h
    rw [translate_slash_append hn hu, hletter, hc]
    exact readEscapes_of_escape? (escape?_of_mem h _)
  | null hc hnext =>
    rw [translate_slash_append hn (by decide), hc]
    exact readEscapes_of_escape? (congrArg some (readOctal_of_head? (hrest hnext) 2 0))
  | unicode hcontrol hline hreturn =>
    have hbounds := isControl_iff.1 hcontrol
    have hunit : Text.utf16Char c = [c.toNat] := Text.utf16Char_of_lt (by omega)
    rw [translate_unicode hcontrol hn, hunit]
    refine readEscapes_of_isPlain (List.forall_mem_singleton.2 ?_) _
    exact ⟨show c.toNat ≠ 92 by omega, by omega, mt Char.toNat_inj.1 hline,
      mt Char.toNat_inj.1 hreturn⟩

end Escaped

/-! ## Escaped texts -/

theorem octalDigit?_head?_translate_escape (hquote : IsQuote quote)
    (hn : n % 2 = 0) (h : cs.head?.any isOctalDigit = false) :
    ∀ unit ∈ (translate n (escape quote cs)).head?, octalDigit? unit = none := by
  cases cs with
  | nil => simp [escape, translate]
  | cons c cs => exact (escaped_escapeChar hquote c cs.head?).octalDigit?_head? hn h _

/-- A text is read back behind an even number of backslashes. -/
theorem readEscapes_translate_escape (hquote : IsQuote quote) (cs : List Char)
    (hn : n % 2 = 0) :
    readEscapes quote.toNat (translate n (escape quote cs)) = some (Text.utf16 cs) := by
  induction cs generalizing n with
  | nil => simp [escape, translate, readEscapes, Text.utf16]
  | cons c cs ih =>
    have hpiece := escaped_escapeChar hquote c cs.head?
    have heven := hpiece.slashes_even hn
    rw [escape, hpiece.readEscapes hquote hn
      (octalDigit?_head?_translate_escape hquote heven), ih heven]
    rfl

/-- An escaped text has no control characters. -/
theorem isControl_eq_false_of_mem_escape (hquote : IsQuote quote) :
    ∀ c ∈ escape quote cs, Unicode.isControl c = false := by
  induction cs with
  | nil => exact nofun
  | cons c cs ih =>
    intro d hd
    rcases List.mem_append.1 hd with hd | hd
    · exact (escaped_escapeChar hquote c cs.head?).isControl_eq_false d hd
    · exact ih d hd

/-- In an escaped text every quote stands behind a run of backslashes that is odd in length. -/
theorem slashes_odd_of_escape_eq (hquote : IsQuote quote) (hn : n % 2 = 0)
    {before after : List Char} (h : escape quote cs = before ++ quote :: after) :
    slashes n before % 2 = 1 := by
  induction cs generalizing n before with
  | nil => simp [escape] at h
  | cons c cs ih =>
    have hpiece := escaped_escapeChar hquote c cs.head?
    rcases List.append_eq_append_iff.1 h with ⟨rest, rfl, hrest⟩ | ⟨rest, heq, hrest⟩
    · rw [slashes_append]
      exact ih (hpiece.slashes_even hn) hrest
    · cases rest with
      | nil =>
        rw [List.append_nil] at heq
        rw [← heq, ← List.append_nil (escapeChar _ _ _), slashes_append]
        exact ih (hpiece.slashes_even hn) hrest.symm
      | cons d rest =>
        obtain ⟨rfl, _⟩ := List.cons.inj hrest
        exact (heq ▸ hpiece).slashes_odd hquote hn

/-- A text is read back from the way it stands in a token. -/
theorem unescape_escape (hquote : IsQuote quote) (cs : List Char) :
    unescape quote (escape quote cs) = some (Text.utf16 cs) :=
  readEscapes_translate_escape hquote cs rfl

/-! ## Strings and characters -/

namespace Literal

variable {value changed : Literal}

theorem isQuote_of_quote? (h : value.quote? = some quote) : IsQuote quote := by
  cases value with
  | string => exact .inl (Option.some.inj h).symm
  | char => exact .inr (Option.some.inj h).symm
  | int | long | float | double | boolean | null => cases h

theorem spelling_of_quote? (h : value.quote? = some quote) :
    value.spelling = escape quote value.display.toList := by
  unfold spelling
  rw [h]

/-- Values with the same quote that readers see as the same are the same. -/
theorem eq_of_display_eq (hvalue : value.quote? = some quote)
    (hchanged : changed.quote? = some quote) (h : changed.display = value.display) :
    changed = value := by
  cases value with
  | string s =>
    cases changed with
    | string t => exact congrArg Literal.string h
    | char =>
      have hne : '\'' ≠ '"' := by decide
      exact absurd (Option.some.inj (hchanged.trans hvalue.symm)) hne
    | int | long | float | double | boolean | null => cases hchanged
  | char c =>
    cases changed with
    | char d => exact congrArg Literal.char (by simpa [display] using h)
    | string =>
      have hne : '"' ≠ '\'' := by decide
      exact absurd (Option.some.inj (hchanged.trans hvalue.symm)) hne
    | int | long | float | double | boolean | null => cases hchanged
  | int | long | float | double | boolean | null => cases hvalue

theorem spelling_eq_iff (hvalue : value.quote? = some quote)
    (hchanged : changed.quote? = some quote) :
    changed.spelling = value.spelling ↔ changed = value := by
  constructor
  · intro h
    have hquote := isQuote_of_quote? hvalue
    rw [spelling_of_quote? hvalue, spelling_of_quote? hchanged] at h
    have hread := congrArg (unescape quote) h
    rw [unescape_escape hquote, unescape_escape hquote] at hread
    have hdisplay := Text.utf16_injective (Option.some.inj hread)
    exact eq_of_display_eq hvalue hchanged (String.toList_inj.1 hdisplay)
  · rintro rfl
    rfl

/-- **The spelling of a string or a character is read back as its value.** It has no control
characters, and every quote in it stands behind a run of backslashes that is odd in length. So no
two strings and no two characters have the same spelling, and a change from one to another is left
out only if the value is not found in the token or stays the same. -/
theorem unescape_spelling (hvalue : value.quote? = some quote)
    (hchanged : changed.quote? = some quote) :
    (∀ c ∈ value.spelling, Unicode.isControl c = false) ∧
    (∀ before after, value.spelling = before ++ quote :: after → slashes 0 before % 2 = 1) ∧
    unescape quote value.spelling = some (Text.utf16 value.display.toList) ∧
    (changed.spelling = value.spelling ↔ changed = value) ∧
    ∀ (text : String) (span : Span) (transform : LiteralTransform), transform value = changed →
      (value.edit? text span transform = none ↔
        value.locate? (Text.slice text span).toList = none ∨ changed = value) := by
  have hquote := isQuote_of_quote? hvalue
  have hspelling := spelling_of_quote? hvalue
  refine ⟨?_, ?_, ?_, spelling_eq_iff hvalue hchanged, ?_⟩
  · rw [hspelling]
    exact isControl_eq_false_of_mem_escape hquote
  · intro before after h
    rw [hspelling] at h
    exact slashes_odd_of_escape_eq hquote rfl h
  · rw [hspelling]
    exact unescape_escape hquote _
  · rintro text span transform rfl
    rw [edit?_eq_none_iff, spelling_eq_iff hvalue hchanged]

/-- A null in front of a digit is read back, and a token that spells it so can be changed to a null
alone. -/
theorem unescape_spelling_null :
    unescape '"' "\\u00007".toList = some [0, 0x37] ∧
    (string "\x007").edit? "\"\\u00007\"" ⟨0, 9, by decide⟩ (fun _ => string "\x00") ≠ none := by
  have hvalue : (string "\x007").quote? = some '"' := rfl
  have hchanged : (string "\x00").quote? = some '"' := rfl
  obtain ⟨_, _, hread, _, hedit⟩ := unescape_spelling hvalue hchanged
  have hspelling : (string "\x007").spelling = "\\u00007".toList := by decide +kernel
  refine ⟨hspelling ▸ hread, fun hnone => ?_⟩
  rcases (hedit _ _ _ rfl).1 hnone with hlocate | heq
  · revert hlocate
    decide +kernel
  · revert heq
    decide +kernel

end Literal

end CallRefactor
