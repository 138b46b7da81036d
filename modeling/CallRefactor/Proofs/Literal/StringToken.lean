import CallRefactor.Proofs.Literal.Escape
import CallRefactor.Proofs.Text.Occurrence

/-!
# Reading a string token

In a token the mark of a Unicode escape may be repeated, and a space may be spelled as the letter
`s` behind a backslash. Extra marks are dropped before Unicode escapes are replaced. Such a space is
found afterwards, since a Unicode escape may stand for its backslash. No spelling of this library
uses either, so spellings are read back here too.

Only the empty body is read as the empty text, and a body that ends with a backslash is read as a
text that does.

Main statements: `readBody_escape`, `eq_nil_of_readBody` and `exists_eq_concat_of_readBody`.
-/

namespace CallRefactor

variable {quote c : Char} {next : Option Char} {piece cs body : List Char} {n : Nat}
  {units more : List Nat}

/-! ## Repeated marks -/

/-- A text with a single mark in each Unicode escape. There are `n` backslashes in a row in front of
it, or such a mark if `marked`. -/
def singleMarks (n : Nat) (marked : Bool) : List Char → List Char
  | [] => []
  | c :: cs =>
    if marked ∧ c = 'u' then singleMarks 0 true cs
    else c :: singleMarks (if c = '\\' then n + 1 else 0) (n % 2 = 1 ∧ c = 'u') cs

theorem singleMarks_cons (n : Nat) (c : Char) (cs : List Char) :
    singleMarks n false (c :: cs) =
      c :: singleMarks (if c = '\\' then n + 1 else 0) (n % 2 = 1 ∧ c = 'u') cs :=
  if_neg fun h => Bool.false_ne_true h.1

theorem singleMarks_cons_of_ne (h : c ≠ 'u') (n : Nat) (marked : Bool) (cs : List Char) :
    singleMarks n marked (c :: cs) =
      c :: singleMarks (if c = '\\' then n + 1 else 0) false cs := by
  rw [singleMarks, if_neg fun hmark => h hmark.2, decide_eq_false fun hmark => h hmark.2]

/-- A text without marks stays as it is. -/
theorem singleMarks_append (hne : cs ≠ []) (h : 'u' ∉ cs) (n : Nat) (marked : Bool)
    (rest : List Char) :
    singleMarks n marked (cs ++ rest) = cs ++ singleMarks (slashes n cs) false rest := by
  induction cs generalizing n marked with
  | nil => exact absurd rfl hne
  | cons c cs ih =>
    rw [List.cons_append, singleMarks_cons_of_ne (List.ne_of_not_mem_cons h).symm]
    cases cs with
    | nil => rfl
    | cons d cs =>
      rw [ih (List.cons_ne_nil d cs) (List.not_mem_of_not_mem_cons h)]
      rfl

theorem eq_nil_of_singleMarks (h : singleMarks n false cs = []) : cs = [] := by
  cases cs with
  | nil => rfl
  | cons c cs =>
    rw [singleMarks_cons] at h
    cases h

theorem getLast?_singleMarks (h : cs.getLast? = some '\\') (n : Nat) (marked : Bool) :
    (singleMarks n marked cs).getLast? = some '\\' := by
  fun_induction singleMarks n marked cs with
  | case1 => cases h
  | case2 n marked c cs hmark ih =>
    refine ih (getLast?_of_cons h ?_)
    rw [hmark.2]
    decide
  | case3 n marked c cs _ ih =>
    cases cs with
    | nil => exact h
    | cons d cs => exact List.mem_getLast?_cons (ih h)

/-! ## Spelled spaces -/

/-- The code units of a text whose spaces all stand for themselves. -/
def readSpaces : List Nat → List Nat
  | [] => []
  | [unit] => [unit]
  | unit :: next :: units =>
    if unit = '\\'.toNat then
      if next = 's'.toNat then ' '.toNat :: readSpaces units
      else unit :: next :: readSpaces units
    else unit :: readSpaces (next :: units)

theorem readSpaces_cons_of_ne {unit : Nat} (h : unit ≠ '\\'.toNat) (units : List Nat) :
    readSpaces (unit :: units) = unit :: readSpaces units := by
  cases units with
  | nil => rfl
  | cons next units => exact if_neg h

theorem readSpaces_append (h : ∀ unit ∈ units, unit ≠ '\\'.toNat) (more : List Nat) :
    readSpaces (units ++ more) = units ++ readSpaces more := by
  induction units with
  | nil => rfl
  | cons unit units ih =>
    rw [List.cons_append, readSpaces_cons_of_ne (h unit List.mem_cons_self),
      ih fun unit hunit => h unit (List.mem_cons_of_mem _ hunit)]
    rfl

/-- Other characters behind a backslash stay as they are. -/
theorem readSpaces_slash_cons {unit : Nat} (h : unit ≠ 's'.toNat) (units : List Nat) :
    readSpaces ('\\'.toNat :: unit :: units) = '\\'.toNat :: unit :: readSpaces units := by
  rw [readSpaces, if_pos rfl, if_neg h]

theorem eq_nil_of_readSpaces (h : readSpaces units = []) : units = [] := by
  unfold readSpaces at h
  split at h
  · rfl
  · cases h
  · split at h
    · split at h <;> cases h
    · cases h

theorem getLast?_readSpaces (h : units.getLast? = some '\\'.toNat) :
    (readSpaces units).getLast? = some '\\'.toNat := by
  fun_induction readSpaces units with
  | case1 => cases h
  | case2 => exact h
  | case3 units ih =>
    have hunits : units.getLast? = some '\\'.toNat := by
      cases units with
      | nil => cases h
      | cons => exact h
    exact List.mem_getLast?_cons (ih hunits)
  | case4 next units hne ih =>
    cases units with
    | nil => exact h
    | cons => exact List.mem_getLast?_cons (List.mem_getLast?_cons (ih h))
  | case5 unit next units hne ih => exact List.mem_getLast?_cons (ih h)

/-! ## Escaped texts -/

namespace Escaped

/-- An escaped character has no repeated marks. -/
theorem singleMarks (h : Escaped quote c next piece) (hn : n % 2 = 0) (rest : List Char) :
    singleMarks n false (piece ++ rest) =
      piece ++ CallRefactor.singleMarks (slashes n piece) false rest := by
  cases h with
  | plain =>
    have hmark : ¬ (n % 2 = 1 ∧ c = 'u') := fun hmark => by omega
    rw [List.singleton_append, singleMarks_cons, decide_eq_false hmark]
    rfl
  | letter h =>
    refine singleMarks_append (List.cons_ne_nil _ _) ?_ n false rest
    simp [(letterEscapes_ordinary _ h).1.symm]
  | null => exact singleMarks_append (List.cons_ne_nil _ _) (by decide) n false rest
  | unicode =>
    have hmark : (n + 1) % 2 = 1 ∧ 'u' = 'u' := ⟨by omega, rfl⟩
    have hne : Text.hex4 c.toNat ≠ [] := List.cons_ne_nil _ _
    have hdigits : ∀ d < 16, 'u' ≠ Text.hexDigit d := by decide
    have hu : 'u' ∉ Text.hex4 c.toNat := by
      intro hmem
      obtain ⟨d, hd, heq⟩ := mem_hex4 hmem
      exact hdigits d hd heq
    rw [List.cons_append, singleMarks_cons_of_ne (by decide), if_pos rfl, List.cons_append,
      singleMarks_cons, if_neg (by decide), decide_eq_true hmark,
      singleMarks_append hne hu]
    rfl

/-- An escaped character is read in code units that none of its spaces is spelled with. -/
theorem exists_translate (h : Escaped quote c next piece) (hn : n % 2 = 0) :
    ∃ units, (∀ rest, translate n (piece ++ rest) = units ++ translate (slashes n piece) rest) ∧
      ∀ more, readSpaces (units ++ more) = units ++ readSpaces more := by
  cases h with
  | plain hslash =>
    refine ⟨_, translate_plain hslash n, readSpaces_append fun unit hunit => ?_⟩
    rcases Text.mem_utf16Char hunit with rfl | hge
    · exact mt Char.toNat_inj.1 hslash
    · exact show unit ≠ 92 by omega
  | @letter letter h =>
    have hspace : ∀ e ∈ letterEscapes, e.1.toNat ≠ 's'.toNat := by decide
    obtain ⟨hu, hunit, _⟩ := letterEscapes_ordinary _ h
    refine ⟨['\\'.toNat, letter.toNat], fun rest => ?_, readSpaces_slash_cons (hspace _ h)⟩
    rw [translate_slash_append hn hu, hunit]
    rfl
  | null =>
    exact ⟨['\\'.toNat, '0'.toNat], translate_slash_append hn (by decide),
      readSpaces_slash_cons (by decide)⟩
  | unicode hcontrol =>
    have hbounds := isControl_iff.1 hcontrol
    exact ⟨[c.toNat], translate_unicode hcontrol hn,
      readSpaces_cons_of_ne (show c.toNat ≠ 92 by omega)⟩

end Escaped

theorem singleMarks_escape (hquote : IsQuote quote) (cs : List Char) (hn : n % 2 = 0) :
    singleMarks n false (escape quote cs) = escape quote cs := by
  induction cs generalizing n with
  | nil => rfl
  | cons c cs ih =>
    have hpiece := escaped_escapeChar hquote c cs.head?
    rw [escape, hpiece.singleMarks hn, ih (hpiece.slashes_even hn)]

theorem readSpaces_translate_escape (hquote : IsQuote quote) (cs : List Char) (hn : n % 2 = 0) :
    readSpaces (translate n (escape quote cs)) = translate n (escape quote cs) := by
  induction cs generalizing n with
  | nil => simp [escape, translate, readSpaces]
  | cons c cs ih =>
    have hpiece := escaped_escapeChar hquote c cs.head?
    obtain ⟨units, htranslate, hspaces⟩ := hpiece.exists_translate hn
    rw [escape, htranslate, hspaces, ih (hpiece.slashes_even hn)]

/-- The character at the end of a text is escaped as if it stood alone. -/
theorem exists_escape_concat (quote c : Char) (cs : List Char) :
    ∃ lead, escape quote (cs ++ [c]) = lead ++ escapeChar quote c none := by
  induction cs with
  | nil => exact ⟨[], List.append_nil _⟩
  | cons d cs ih =>
    obtain ⟨lead, hlead⟩ := ih
    exact ⟨escapeChar quote d (cs ++ [c]).head? ++ lead, by
      rw [List.cons_append, escape, hlead, List.append_assoc]⟩

/-! ## Bodies and tokens -/

/-- The code units of the text that is spelled between the quotes of a token. -/
def readBody (quote : Char) (body : List Char) : Option (List Nat) :=
  readEscapes quote.toNat (readSpaces (translate 0 (singleMarks 0 false body)))

/-- The code units of the text that a string token stands for. -/
def readToken? : List Char → Option (List Nat)
  | '"' :: cs => (Text.dropEnding? ['"'] cs).bind (readBody '"')
  | _ => none

theorem readToken?_quoted (body : List Char) :
    readToken? ('"' :: (body ++ ['"'])) = readBody '"' body := by
  have hbody := Text.dropEnding?_eq_some_iff.2 (Eq.refl (body ++ ['"']))
  rw [readToken?, hbody]
  rfl

example : readToken? "\"\\uu0041\\s\\\\u\"".toList = some (Text.utf16 "A \\u".toList) := by
  decide +kernel

/-- **A text is read back from the way it stands in a token.** -/
theorem readBody_escape (hquote : IsQuote quote) (cs : List Char) :
    readBody quote (escape quote cs) = some (Text.utf16 cs) := by
  rw [readBody, singleMarks_escape hquote cs rfl, readSpaces_translate_escape hquote cs rfl]
  exact unescape_escape hquote cs

theorem eq_nil_of_translate (h : translate n cs = []) : cs = [] := by
  cases cs with
  | nil => rfl
  | cons c cs =>
    rw [translate] at h
    split at h
    · exact absurd (List.append_eq_nil_iff.1 h).1 (Text.utf16Char_ne_nil c)
    · split at h
      · cases h
      · split at h <;> cases h

theorem eq_nil_of_readEscapes {quote : Nat} (h : readEscapes quote units = some []) :
    units = [] := by
  cases units with
  | nil => rfl
  | cons unit units =>
    rw [readEscapes] at h
    split at h
    · split at h
      · obtain ⟨_, _, heq⟩ := Option.map_eq_some_iff.1 h
        cases heq
      · cases h
    · split at h
      · cases h
      · obtain ⟨_, _, heq⟩ := Option.map_eq_some_iff.1 h
        cases heq

/-- Only the empty body is read as the empty text. -/
theorem eq_nil_of_readBody (h : readBody quote body = some []) : body = [] :=
  eq_nil_of_singleMarks (eq_nil_of_translate (eq_nil_of_readSpaces (eq_nil_of_readEscapes h)))

/-- A body that ends with a backslash is read as a text that does. -/
theorem exists_eq_concat_of_readBody (h : readBody quote body = some (Text.utf16 cs))
    (hlast : body.getLast? = some '\\') : ∃ lead, cs = lead ++ ['\\'] := by
  have hunits := getLast?_readEscapes h
    (getLast?_readSpaces (getLast?_translate (getLast?_singleMarks hlast 0 false) 0))
  rcases List.eq_nil_or_concat cs with rfl | ⟨lead, c, rfl⟩
  · cases hunits
  · rw [List.concat_eq_append] at hunits ⊢
    rw [Text.utf16, List.flatMap_append, List.flatMap_singleton,
      List.getLast?_append_of_ne_nil _ (Text.utf16Char_ne_nil c)] at hunits
    rcases Text.mem_utf16Char (List.mem_of_getLast? hunits) with heq | hge
    · exact ⟨lead, by rw [← Char.toNat_inj.1 heq]⟩
    · exact absurd hge (by decide)

end CallRefactor
