import CallRefactor.Proofs.Literal.StringToken

/-!
# Changing a string token

The value of a token is looked up behind the opening quote by the way this library spells it. It is
never found at the closing quote: the quotes in a spelling stand behind backslashes, and a body that
ends with a backslash is read as a text whose spelling ends with two. A token that is spelled in
another way may still have the spelling inside an escape; then what comes out is read with the rest
of the escape.

Main statements: `edit?_reads_iff`, when the changed token is read as the changed value, and
`not_edit?_reads`, a token where it is not.
-/

namespace CallRefactor

namespace Literal

variable {text : String} {span : Span} {s t : String} {transform : LiteralTransform} {e : Edit}
  {body before after : List Char}

/-! ## The value that is looked up -/

theorem spelling_string (s : String) : (string s).spelling = escape '"' s.toList :=
  spelling_of_quote? rfl

theorem locate?_quoted (s : String) (body : List Char) :
    (string s).locate? ('"' :: (body ++ ['"'])) =
      (Text.breakAt? (string s).spelling (body ++ ['"'])).map fun (before, after) =>
        ('"' :: before, after) := by
  have hopening : Text.breakAt? ['"'] ('"' :: (body ++ ['"'])) = some ([], body ++ ['"']) :=
    Text.breakAt?_append_self ['"'] (body ++ ['"'])
  unfold locate?
  simp only [quote?, Option.bind_some]
  rw [hopening]
  rfl

theorem getLast?_of_slashes_odd {cs : List Char} (h : slashes 0 cs % 2 = 1) :
    cs.getLast? = some '\\' := by
  rcases List.eq_nil_or_concat cs with rfl | ⟨lead, c, rfl⟩
  · cases h
  · rw [List.concat_eq_append] at h ⊢
    rw [slashes_append] at h
    by_cases hc : c = '\\'
    · rw [hc, List.getLast?_concat]
    · rw [slashes, if_neg hc] at h
      cases h

/-- The spelling of a value does not reach the end of a token for it. -/
theorem ne_nil_of_breakAt? (hbody : readBody '"' body = some (Text.utf16 s.toList))
    (hcut : Text.breakAt? (string s).spelling (body ++ ['"']) = some (before, after)) :
    after ≠ [] := by
  rintro rfl
  have hend := Text.append_append_of_breakAt? hcut
  rw [List.append_nil] at hend
  rcases List.eq_nil_or_concat (string s).spelling with hnil | ⟨lead, c, hconcat⟩
  · -- the empty text is found in front of the closing quote
    have hself := Text.breakAt?_append_self [] (body ++ ['"'])
    rw [hnil] at hcut
    have heq := (Prod.mk.inj (Option.some.inj (hself.symm.trans hcut))).2
    exact absurd heq (List.append_ne_nil_of_right_ne_nil body (List.cons_ne_nil _ _))
  · rw [hconcat, List.concat_eq_append, ← List.append_assoc] at hend
    obtain ⟨rfl, hc⟩ := List.append_inj' hend rfl
    obtain rfl : c = '"' := (List.cons.inj hc).1
    rw [List.concat_eq_append, spelling_string] at hconcat
    have hlead := getLast?_of_slashes_odd (slashes_odd_of_escape_eq (.inl rfl) rfl hconcat)
    have hlast : (before ++ lead).getLast? = some '\\' := by
      rw [List.getLast?_append, hlead, Option.some_or]
    obtain ⟨cs, hcs⟩ := exists_eq_concat_of_readBody hbody hlast
    obtain ⟨lead', hlead'⟩ := exists_escape_concat '"' '\\' cs
    rw [hcs, hlead'] at hconcat
    have hquote := congrArg List.getLast? hconcat
    rw [show escapeChar '"' '\\' none = ['\\'] ++ ['\\'] from rfl, ← List.append_assoc,
      List.getLast?_concat, List.getLast?_concat] at hquote
    exact absurd (Option.some.inj hquote) (by decide)

/-- In a token for it a string is found where its spelling first stands between the quotes. -/
theorem locate?_eq_some_iff (hbody : readBody '"' body = some (Text.utf16 s.toList)) :
    (string s).locate? ('"' :: (body ++ ['"'])) = some (before, after) ↔
      ∃ front back, Text.breakAt? (string s).spelling body = some (front, back) ∧
        '"' :: front = before ∧ back ++ ['"'] = after := by
  rw [locate?_quoted, Option.map_eq_some_iff]
  constructor
  · rintro ⟨⟨front, rest⟩, hcut, heq⟩
    obtain ⟨rfl, rfl⟩ := Prod.mk.inj heq
    rcases List.eq_nil_or_concat rest with rfl | ⟨back, c, rfl⟩
    · exact absurd rfl (ne_nil_of_breakAt? hbody hcut)
    · rw [List.concat_eq_append] at hcut ⊢
      have hend := Text.append_append_of_breakAt? hcut
      rw [← List.append_assoc, ← List.append_assoc] at hend
      obtain rfl : c = '"' := (List.cons.inj (List.append_inj' hend rfl).2).1
      exact ⟨front, back, Text.breakAt?_append_eq_some_iff.1 hcut, rfl, rfl⟩
  · rintro ⟨front, back, hcut, rfl, rfl⟩
    exact ⟨(front, back ++ ['"']), Text.breakAt?_append_eq_some_iff.2 hcut, rfl⟩

/-- The edit of a string puts the new spelling into the body of its token. -/
theorem edit?_string_eq_some_iff
    (htoken : (Text.slice text span).toList = '"' :: (body ++ ['"']))
    (hbody : readBody '"' body = some (Text.utf16 s.toList))
    (hchanged : transform (string s) = string t) :
    (string s).edit? text span transform = some e ↔
      ∃ front back, Text.breakAt? (string s).spelling body = some (front, back) ∧ t ≠ s ∧
        e = ⟨span, String.ofList ('"' :: ((front ++ (string t).spelling ++ back) ++ ['"']))⟩ := by
  rw [edit?_eq_some_iff, htoken, hchanged]
  have hspelling : (string t).spelling ≠ (string s).spelling ↔ t ≠ s := by
    rw [Ne, spelling_eq_iff rfl rfl, string.injEq]
  constructor
  · rintro ⟨before, after, hcut, hne, rfl⟩
    obtain ⟨front, back, hbreak, rfl, rfl⟩ := (locate?_eq_some_iff hbody).1 hcut
    exact ⟨front, back, hbreak, hspelling.1 hne, by simp⟩
  · rintro ⟨front, back, hbreak, hne, rfl⟩
    exact ⟨_, _, (locate?_eq_some_iff hbody).2 ⟨front, back, hbreak, rfl, rfl⟩,
      hspelling.2 hne, by simp⟩

/-- A string is left as it is if its spelling is not found in the body, or if it does not change. -/
theorem edit?_string_eq_none_iff
    (htoken : (Text.slice text span).toList = '"' :: (body ++ ['"']))
    (hbody : readBody '"' body = some (Text.utf16 s.toList))
    (hchanged : transform (string s) = string t) :
    (string s).edit? text span transform = none ↔
      Text.breakAt? (string s).spelling body = none ∨ t = s := by
  have hedit := fun e => edit?_string_eq_some_iff (e := e) htoken hbody hchanged
  cases hcut : Text.breakAt? (string s).spelling body with
  | none =>
    refine iff_of_true (Option.eq_none_iff_forall_not_mem.2 fun e he => ?_) (.inl rfl)
    obtain ⟨front, back, hfound, _⟩ := (hedit e).1 he
    cases hcut.symm.trans hfound
  | some cut =>
    rw [or_iff_right (Option.some_ne_none cut)]
    constructor
    · intro hnone
      by_contra hne
      cases hnone.symm.trans ((hedit _).2 ⟨cut.1, cut.2, hcut, hne, rfl⟩)
    · rintro rfl
      refine Option.eq_none_iff_forall_not_mem.2 fun e he => ?_
      obtain ⟨_, _, _, hne, _⟩ := (hedit e).1 he
      exact hne rfl

/-! ## When a changed token is read as the changed value -/

/-- A token that spells its text in this library's way is read as that text. -/
theorem readToken?_spelling (t : String) :
    readToken? ('"' :: ((string t).spelling ++ ['"'])) = some (Text.utf16 t.toList) := by
  rw [readToken?_quoted, spelling_string]
  exact readBody_escape (.inl rfl) _

/-- A body that is read as the empty text when the spelling is taken out is the spelling. -/
theorem eq_spelling_of_readBody {front back : List Char}
    (hcut : Text.breakAt? (string s).spelling body = some (front, back))
    (hread : readBody '"' (front ++ back) = some []) : body = (string s).spelling := by
  obtain ⟨rfl, rfl⟩ := List.append_eq_nil_iff.1 (eq_nil_of_readBody hread)
  rw [← Text.append_append_of_breakAt? hcut, List.nil_append, List.append_nil]

/-- **A token is changed rightly to every value only if it spells its value in this library's way.**
A token is left as it is if its body does not have the spelling or the value stays the same. Where
the spelling is first found in the body, that of the new value takes its place, and the token is
right if the body that comes out is read as the new value. This holds for every new value if the
spelling is the whole body or is not found in it, and in no other case. -/
theorem edit?_reads_iff (htoken : (Text.slice text span).toList = '"' :: (body ++ ['"']))
    (hbody : readBody '"' body = some (Text.utf16 s.toList)) :
    (∀ (transform : LiteralTransform) (t : String), transform (string s) = string t →
      ((string s).edit? text span transform = none ↔
        Text.breakAt? (string s).spelling body = none ∨ t = s)) ∧
    (∀ (transform : LiteralTransform) (t : String) (e : Edit),
      transform (string s) = string t → (string s).edit? text span transform = some e →
        ∃ front back, Text.breakAt? (string s).spelling body = some (front, back) ∧
          e.replacement.toList = '"' :: ((front ++ (string t).spelling ++ back) ++ ['"']) ∧
          (readToken? e.replacement.toList = some (Text.utf16 t.toList) ↔
            readBody '"' (front ++ (string t).spelling ++ back) =
              some (Text.utf16 t.toList))) ∧
    ((∀ (transform : LiteralTransform) (t : String) (e : Edit),
      transform (string s) = string t → (string s).edit? text span transform = some e →
        readToken? e.replacement.toList = some (Text.utf16 t.toList)) ↔
      body = (string s).spelling ∨ Text.breakAt? (string s).spelling body = none) := by
  refine ⟨?_, ?_, ?_, ?_⟩
  · exact fun transform t hchanged => edit?_string_eq_none_iff htoken hbody hchanged
  · intro transform t e hchanged hedit
    obtain ⟨front, back, hcut, -, rfl⟩ := (edit?_string_eq_some_iff htoken hbody hchanged).1 hedit
    rw [String.toList_ofList]
    exact ⟨front, back, hcut, rfl, by rw [readToken?_quoted]⟩
  · intro hreads
    rw [or_iff_not_imp_right, ← Ne, Option.ne_none_iff_exists']
    rintro ⟨⟨front, back⟩, hcut⟩
    by_cases hs : "" = s
    · subst hs
      rw [eq_nil_of_readBody hbody]
      rfl
    · -- without the value nothing may be left of the body
      have hempty := hreads (fun _ => string "") "" _ rfl
        ((edit?_string_eq_some_iff htoken hbody rfl).2 ⟨front, back, hcut, hs, rfl⟩)
      rw [String.toList_ofList, readToken?_quoted, show (string "").spelling = [] from rfl,
        List.append_nil] at hempty
      exact eq_spelling_of_readBody hcut hempty
  · intro hverbatim transform t e hchanged hedit
    obtain ⟨front, back, hcut, -, rfl⟩ := (edit?_string_eq_some_iff htoken hbody hchanged).1 hedit
    rcases hverbatim with rfl | hnone
    · have hself := Text.breakAt?_append_self (string s).spelling []
      rw [List.append_nil] at hself
      obtain ⟨rfl, rfl⟩ := Prod.mk.inj (Option.some.inj (hself.symm.trans hcut))
      rw [String.toList_ofList, List.nil_append, List.append_nil]
      exact readToken?_spelling t
    · cases hnone.symm.trans hcut

/-- A quote behind a backslash is the spelling of this library, so the token can be changed to any
text. -/
theorem edit?_reads_iff_verbatim :
    (string "a\"b").edit? "\"a\\\"b\"" ⟨0, 6, by decide⟩ (fun _ => string "c\nd") =
        some ⟨⟨0, 6, by decide⟩, "\"c\\nd\""⟩ ∧
      readToken? "\"c\\nd\"".toList = some (Text.utf16 "c\nd".toList) := by
  have hedit : (string "a\"b").edit? "\"a\\\"b\"" ⟨0, 6, by decide⟩ (fun _ => string "c\nd") =
      some ⟨⟨0, 6, by decide⟩, "\"c\\nd\""⟩ := by decide +kernel
  have hreads := @edit?_reads_iff "\"a\\\"b\"" ⟨0, 6, by decide⟩ "a\"b" "a\\\"b".toList
    (by decide +kernel) (by decide +kernel)
  have hverbatim : "a\\\"b".toList = (string "a\"b").spelling := by decide +kernel
  exact ⟨hedit, hreads.2.2.2 (.inl hverbatim) _ _ _ rfl hedit⟩

/-- A token that spells the letter `u` as a Unicode escape stands for that letter and has it in the
escape. Changed to a capital it is no string token any more. -/
theorem not_edit?_reads :
    readToken? "\"\\u0075\"".toList = some (Text.utf16 "u".toList) ∧
      "\"\\u0075\"".toList ≠ '"' :: ((string "u").spelling ++ ['"']) ∧
      ∃ e, (string "u").edit? "\"\\u0075\"" ⟨0, 8, by decide⟩ (fun _ => string "U") = some e ∧
        readToken? e.replacement.toList = none := by
  have hedit : (string "u").edit? "\"\\u0075\"" ⟨0, 8, by decide⟩ (fun _ => string "U") =
      some ⟨⟨0, 8, by decide⟩, "\"\\U0075\""⟩ := by decide +kernel
  exact ⟨by decide +kernel, by decide +kernel, _, hedit, by decide +kernel⟩

end Literal

end CallRefactor
