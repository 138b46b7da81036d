import CallRefactor.Proofs.Pattern.Arguments
import CallRefactor.Proofs.Pattern.TypeGrammar
import CallRefactor.Proofs.Text.Occurrence
import CallRefactor.Rule.Pattern

/-!
# The grammar of signatures

A signature is a type, blanks, a name and, in parentheses, an argument list. The reader finds these
parts by cutting: at the first parenthesis, at the last blank in front of it, at every comma. The
grammar says what the parts are and nothing about cuts. Both agree because no part holds a character
that the reader cuts at, apart from the blanks in a type, and those are never the last ones in front
of the name.

Main statements: `ArgumentsPattern.exists_parse_iff`, for argument lists;
`Signature.exists_parse_iff`, for signatures; and `compile_accepts_grammar`, which texts are
accepted and what becomes of the others.
-/

namespace CallRefactor

open Pattern

/-! ## Argument lists and signatures -/

/-- An element of an argument list: a type or the ellipsis. -/
def IsElement (cs : List Char) : Prop := cs = ArgumentsPattern.ellipsis ∨ IsType cs

/-- An argument list without its parentheses. -/
inductive IsArgumentList (cs : List Char) : Prop where
  /-- Nothing but blanks. -/
  | blank (h : IsBlankText cs)
  /-- Texts between commas. Trimmed, each of them is an element, and one at most is the ellipsis. -/
  | elements {pieces elements : List (List Char)} (hne : pieces ≠ [])
    (hcs : cs = [','].intercalate pieces)
    (htrim : List.Forall₂ (Text.TrimsTo Unicode.isBlank) pieces elements)
    (helements : ∀ e ∈ elements, IsElement e)
    (hcount : elements.count ArgumentsPattern.ellipsis ≤ 1)

/-- A signature: a type, blanks, a name, blanks at will, and an argument list in parentheses. -/
inductive IsSignature : List Char → Prop where
  /-- The parts of a signature. -/
  | parts {type gap name space arguments : List Char} (htype : IsType type)
    (hgap : IsBlankText gap) (hne : gap ≠ []) (hname : IsSegment name)
    (hspace : IsBlankText space) (harguments : IsArgumentList arguments) :
    IsSignature (type ++ gap ++ name ++ space ++ '(' :: (arguments ++ [')']))

variable {cs : List Char}

/-! ## What no part of a signature holds -/

theorem IsElement.isTypeChar (h : IsElement cs) : ∀ c ∈ cs, IsTypeChar c := by
  rcases h with rfl | h
  · intro c hc
    obtain rfl : c = '.' := by simpa [ArgumentsPattern.ellipsis] using hc
    exact .inr (.inr (.inl rfl))
  · exact h.isTypeChar

theorem IsElement.trimWhile_eq (h : IsElement cs) : Text.trimWhile Unicode.isBlank cs = cs := by
  rcases h with rfl | h
  · decide
  · exact h.trimsTo.trimWhile_eq

theorem IsElement.ne_nil (h : IsElement cs) : cs ≠ [] := by
  rcases h with rfl | h
  · decide
  · obtain ⟨c, rest, rfl, _⟩ := h.exists_cons
    exact List.cons_ne_nil c rest

/-- Elements with blanks around them are made of the characters of a type. -/
theorem isTypeChar_of_trimsTo {pieces elements : List (List Char)}
    (htrim : List.Forall₂ (Text.TrimsTo Unicode.isBlank) pieces elements)
    (helements : ∀ e ∈ elements, IsElement e) : ∀ piece ∈ pieces, ∀ c ∈ piece, IsTypeChar c := by
  induction htrim with
  | nil => exact nofun
  | cons hpiece _ ih =>
    obtain ⟨he, hrest⟩ := List.forall_mem_cons.1 helements
    refine List.forall_mem_cons.2 ⟨?_, ih hrest⟩
    obtain ⟨before, after, hbefore, hafter, rfl⟩ := hpiece.parts
    refine List.forall_mem_append.2 ⟨List.forall_mem_append.2 ⟨?_, he.isTypeChar⟩, ?_⟩
    · exact IsBlankText.isTypeChar hbefore
    · exact IsBlankText.isTypeChar hafter

/-- The marks at which a signature is cut are not of the characters of a type. -/
theorem not_isTypeChar_of_mem {c : Char} (h : c ∈ [',', '(', ')']) : ¬ IsTypeChar c := by
  simp only [List.mem_cons, List.not_mem_nil, or_false] at h
  rcases h with rfl | rfl | rfl <;> decide +kernel

theorem IsArgumentList.isTypeChar (h : IsArgumentList cs) : ∀ c ∈ cs, IsTypeChar c ∨ c = ',' := by
  cases h with
  | blank h => exact fun c hc => .inl (IsBlankText.isTypeChar h c hc)
  | @elements pieces es hne hcs htrim helements _ =>
    have hpieces := isTypeChar_of_trimsTo htrim helements
    clear hne htrim
    subst hcs
    induction pieces with
    | nil => exact nofun
    | cons piece pieces ih =>
      obtain ⟨hfirst, hrest⟩ := List.forall_mem_cons.1 hpieces
      by_cases hnil : pieces = []
      · rw [hnil, List.intercalate_singleton]
        exact fun c hc => .inl (hfirst c hc)
      · rw [List.intercalate_cons_of_ne_nil hnil]
        refine List.forall_mem_append.2 ⟨List.forall_mem_append.2 ⟨?_, ?_⟩, ih hrest⟩
        · exact fun c hc => .inl (hfirst c hc)
        · exact List.forall_mem_singleton.2 (.inr rfl)

theorem IsArgumentList.paren_not_mem (h : IsArgumentList cs) : '(' ∉ cs ∧ ')' ∉ cs := by
  constructor <;>
  · intro hmem
    rcases h.isTypeChar _ hmem with hc | hc
    · exact not_isTypeChar_of_mem (by decide) hc
    · exact absurd hc (by decide)

/-! ## Reading argument lists -/

namespace ArgumentsPattern

/-- A trimmed text is read as an element exactly when it is one. -/
theorem exists_element_iff (h : Text.trimWhile Unicode.isBlank cs = cs) :
    (∃ item, element cs = .ok item) ↔ IsElement cs := by
  unfold element
  by_cases hempty : cs = []
  · subst hempty
    exact ⟨nofun, fun h => absurd rfl h.ne_nil⟩
  rw [if_neg (by simpa using hempty)]
  by_cases hellipsis : cs = ellipsis
  · rw [if_pos hellipsis]
    exact ⟨fun _ => .inl hellipsis, fun _ => ⟨_, rfl⟩⟩
  rw [if_neg hellipsis]
  have htype : (∃ pattern, TypePattern.parse (String.ofList cs) = .ok pattern) ↔ IsType cs := by
    rw [TypePattern.exists_parse_iff, String.toList_ofList, h]
  constructor
  · rintro ⟨item, hitem⟩
    obtain ⟨pattern, hpattern, _⟩ := map_eq_ok_iff.1 hitem
    exact .inr (htype.1 ⟨pattern, hpattern⟩)
  · rintro (heq | h)
    · exact absurd heq hellipsis
    · obtain ⟨pattern, hpattern⟩ := htype.2 h
      exact ⟨_, map_eq_ok_iff.2 ⟨pattern, hpattern, rfl⟩⟩

/-- To trim an argument list makes no difference to its elements. -/
theorem elements_eq (hne : Text.trimWhile Unicode.isBlank cs ≠ []) :
    elements cs = (Text.splitOn ',' cs).map (Text.trimWhile Unicode.isBlank) := by
  unfold elements
  rw [if_neg (by simpa using hne)]
  exact Text.map_trimWhile_splitOn (by decide) cs

theorem elements_of_blank (h : IsBlankText cs) : elements cs = [] := by
  unfold elements
  rw [if_pos (by simpa using Text.trimWhile_eq_nil_iff.2 h)]

/-- The elements of an argument list come back from the text that they make up. -/
theorem elements_intercalate {pieces es : List (List Char)} (hne : pieces ≠ [])
    (htrim : List.Forall₂ (Text.TrimsTo Unicode.isBlank) pieces es)
    (helements : ∀ e ∈ es, IsElement e) : elements ([','].intercalate pieces) = es := by
  have hchars := isTypeChar_of_trimsTo htrim helements
  have hcomma : ∀ piece ∈ pieces, ',' ∉ piece :=
    fun piece hpiece hmem => not_isTypeChar_of_mem (by decide) (hchars piece hpiece _ hmem)
  have hsplit : (Text.splitOn ',' ([','].intercalate pieces)).map (Text.trimWhile Unicode.isBlank)
      = es := by
    rw [Text.splitOn_intercalate hne hcomma]
    clear hne helements hchars hcomma
    induction htrim with
    | nil => rfl
    | cons hpiece _ ih => rw [List.map_cons, hpiece.trimWhile_eq, ih]
  rw [elements_eq, hsplit]
  -- a blank text would be a single piece with nothing in it
  intro hblank
  have hfree : ',' ∉ [','].intercalate pieces :=
    fun hmem => absurd (Text.trimWhile_eq_nil_iff.1 hblank _ hmem) (by decide)
  rw [Text.splitOn_of_not_mem hfree, List.map_singleton, hblank] at hsplit
  exact (helements [] (hsplit ▸ List.mem_singleton_self [])).ne_nil rfl

/-- A text is read as an argument list exactly when it is one. -/
theorem exists_parse_iff : (∃ pattern, parse cs = .ok pattern) ↔ IsArgumentList cs := by
  constructor
  · rintro ⟨pattern, h⟩
    obtain ⟨hitems, hcount⟩ := parse_eq_ok h
    by_cases hblank : Text.trimWhile Unicode.isBlank cs = []
    · exact .blank (Text.trimWhile_eq_nil_iff.1 hblank)
    rw [elements_eq hblank] at hitems hcount
    have hjoin := (Text.intercalate_splitOn ',' cs).symm
    refine .elements (Text.splitOn_ne_nil ',' cs) hjoin ?_ ?_ hcount
    · exact List.forall₂_map_right_iff.2
        (List.forall₂_same.2 fun piece _ => Text.trimsTo_trimWhile _ piece)
    · intro e he
      obtain ⟨piece, _, rfl⟩ := List.mem_map.1 he
      exact (exists_element_iff (Text.trimWhile_trimWhile _ piece)).1
        (exists_mapM_eq_ok_iff.1 ⟨pattern, hitems⟩ _ he)
  · intro h
    cases h with
    | blank h =>
      have hnone := elements_of_blank h
      exact ⟨[], parse_of_elements (by rw [hnone]; rfl) (by rw [hnone]; exact Nat.zero_le 1)⟩
    | elements hne hcs htrim helements hcount =>
      have hes := elements_intercalate hne htrim helements
      rw [← hcs] at hes
      have hitems : ∀ e ∈ elements cs, ∃ item, element e = .ok item := by
        intro e he
        have hel := helements e (hes ▸ he)
        exact (exists_element_iff hel.trimWhile_eq).2 hel
      obtain ⟨pattern, hpattern⟩ := exists_mapM_eq_ok_iff.2 hitems
      exact ⟨pattern, parse_of_elements hpattern (hes ▸ hcount)⟩

end ArgumentsPattern

/-! ## Reading names -/

namespace NamePattern

/-- To drop a star in front makes no difference, except to a star alone. -/
theorem isSegment_body_iff (h : cs ≠ ['*']) : IsSegment (body cs) ↔ IsSegment cs := by
  cases cs with
  | nil => exact Iff.rfl
  | cons c rest =>
    by_cases hc : c = '*'
    · subst hc
      have hrest : rest ≠ [] := fun hnil => h (by rw [hnil])
      rw [show body ('*' :: rest) = rest from rfl, IsSegment, IsSegment,
        List.forall_mem_cons]
      constructor
      · rintro ⟨_, hall⟩
        exact ⟨List.cons_ne_nil _ _, isPatternChar_star, hall⟩
      · rintro ⟨_, _, hall⟩
        exact ⟨hrest, hall⟩
    · rw [show body (c :: rest) = c :: rest from if_neg hc]

theorem exists_parse_iff : (∃ pattern, parse cs = .ok pattern) ↔ IsSegment cs := by
  unfold parse
  by_cases hany : cs = ['*']
  · rw [if_pos hany, hany]
    have hstar : IsSegment ['*'] := ⟨by decide, List.forall_mem_singleton.2 isPatternChar_star⟩
    exact ⟨fun _ => hstar, fun _ => ⟨_, rfl⟩⟩
  rw [if_neg hany, ← isSegment_body_iff hany]
  have hbody : IsSegment (body cs) ↔ ¬ ((body cs).isEmpty ∨ ¬ (body cs).all isPatternChar) := by
    simp [IsSegment]
  rw [hbody]
  split
  · next hbad =>
    constructor
    · rintro ⟨pattern, h⟩
      cases h
    · intro h
      exact absurd hbad h
  · next hgood => exact ⟨fun _ => hgood, fun _ => ⟨_, rfl⟩⟩

end NamePattern

/-! ## Reading signatures -/

namespace Signature

variable {head inner type name : List Char}

/-- The parentheses are the first one and the last character, and there are no others. -/
theorem cutArguments_eq_ok_iff :
    cutArguments cs = .ok (head, inner) ↔
      cs = head ++ '(' :: (inner ++ [')']) ∧ '(' ∉ head ∧ '(' ∉ inner ∧ ')' ∉ inner := by
  unfold cutArguments
  constructor
  · intro h
    split at h
    · cases h
    next before tail hbreak =>
      obtain ⟨rfl, hbefore⟩ := Text.breakAt?_singleton_eq_some_iff.1 hbreak
      split at h
      · cases h
      next between hdrop =>
        obtain rfl := Text.dropEnding?_eq_some_iff.1 hdrop
        split at h
        · cases h
        next hparen =>
          obtain ⟨rfl, rfl⟩ := Prod.mk.inj (Except.ok.inj h)
          refine ⟨rfl, hbefore, ?_, ?_⟩ <;>
          · intro hmem
            exact hparen (List.any_eq_true.2 ⟨_, hmem, by decide⟩)
  · rintro ⟨rfl, hhead, hopen, hclose⟩
    have hbreak := Text.breakAt?_singleton_eq_some_iff.2
      ⟨show head ++ '(' :: (inner ++ [')']) = _ from rfl, hhead⟩
    have hparen : ¬ (inner.any fun c => c = '(' || c = ')') = true := by
      intro h
      obtain ⟨c, hc, hparen⟩ := List.any_eq_true.1 h
      rcases Bool.or_eq_true_iff.1 hparen with heq | heq
      · exact hopen (of_decide_eq_true heq ▸ hc)
      · exact hclose (of_decide_eq_true heq ▸ hc)
    rw [hbreak]
    simp only
    rw [Text.dropEnding?_eq_some_iff.2 rfl]
    exact if_neg hparen

/-- The name is what stands behind the last blank, apart from blanks at the end. -/
theorem cutName_eq_ok_iff :
    cutName head = .ok (type, name) ↔
      ∃ before c space, head = before ++ c :: name ++ space ∧ Unicode.isBlank c = true ∧
        name ≠ [] ∧ (∀ d ∈ name, Unicode.isBlank d = false) ∧ IsBlankText space ∧
        type = Text.trimWhile Unicode.isBlank before := by
  unfold cutName
  constructor
  · intro h
    obtain ⟨space, hspace, hhead⟩ := Text.exists_eq_dropEndWhile_append Unicode.isBlank head
    have hlast := Text.getLast?_dropEndWhile Unicode.isBlank head
    split at h
    · cases h
    next before after hsplit =>
      obtain ⟨rfl, rfl⟩ := Prod.mk.inj (Except.ok.inj h)
      obtain ⟨c, hcut, hc, hname⟩ := Text.splitLast?_eq_some_iff.1 hsplit
      rw [hcut] at hhead hlast
      refine ⟨before, c, space, hhead, hc, ?_, hname, hspace, rfl⟩
      -- the text that is cut does not end with a blank
      rintro rfl
      rw [hlast c (by simp)] at hc
      cases hc
  · rintro ⟨before, c, space, rfl, hc, hne, hname, hspace, rfl⟩
    obtain ⟨front, d, rfl⟩ := (List.eq_nil_or_concat' name).resolve_left hne
    have hlast : ∀ e ∈ (before ++ c :: (front ++ [d])).getLast?, Unicode.isBlank e = false := by
      intro e he
      rw [← List.cons_append, ← List.append_assoc, List.getLast?_concat] at he
      obtain rfl := Option.some.inj he
      exact hname d (by simp)
    rw [Text.dropEndWhile_append hspace, Text.dropEndWhile_eq_self hlast,
      Text.splitLast?_eq_some_iff.2 ⟨c, rfl, hc, hname⟩]

/-- A signature is read when the texts that it is cut into are. -/
theorem exists_parse_iff_cuts {text : String} :
    (∃ signature, Signature.parse text = .ok signature) ↔
      ∃ head inner type name,
        cutArguments (Text.trimWhile Unicode.isBlank text.toList) = .ok (head, inner) ∧
        cutName head = .ok (type, name) ∧ IsType type ∧ IsSegment name ∧ IsArgumentList inner := by
  have howner : ∀ {head type name}, cutName head = .ok (type, name) →
      ((∃ path, Path.parse type = .ok path) ↔ IsType type) := by
    intro head type name hcut
    obtain ⟨before, _, _, _, _, _, _, _, rfl⟩ := cutName_eq_ok_iff.1 hcut
    exact Path.exists_parse_iff (Text.trimsTo_trimWhile _ before).last
  simp only [← NamePattern.exists_parse_iff, ← ArgumentsPattern.exists_parse_iff]
  unfold Signature.parse
  constructor
  · rintro ⟨signature, h⟩
    obtain ⟨⟨head, inner⟩, hcut, h⟩ := bind_eq_ok_iff.1 h
    obtain ⟨⟨type, name⟩, hcutName, h⟩ := bind_eq_ok_iff.1 h
    obtain ⟨path, hpath, h⟩ := bind_eq_ok_iff.1 h
    obtain ⟨pattern, hpattern, h⟩ := bind_eq_ok_iff.1 h
    obtain ⟨arguments, harguments, _⟩ := bind_eq_ok_iff.1 h
    exact ⟨head, inner, type, name, hcut, hcutName, (howner hcutName).1 ⟨path, hpath⟩,
      ⟨pattern, hpattern⟩, arguments, harguments⟩
  · rintro ⟨head, inner, type, name, hcut, hcutName, htype, ⟨pattern, hpattern⟩, arguments,
      harguments⟩
    obtain ⟨path, hpath⟩ := (howner hcutName).2 htype
    refine ⟨⟨text, path, pattern, arguments⟩, bind_eq_ok_iff.2 ⟨_, hcut, ?_⟩⟩
    refine bind_eq_ok_iff.2 ⟨_, hcutName, bind_eq_ok_iff.2 ⟨path, hpath, ?_⟩⟩
    exact bind_eq_ok_iff.2 ⟨pattern, hpattern, bind_eq_ok_iff.2 ⟨arguments, harguments, rfl⟩⟩

theorem isSignature_of_cuts (hhead : ∀ c ∈ cs.head?, Unicode.isBlank c = false)
    (hcut : cutArguments cs = .ok (head, inner)) (hcutName : cutName head = .ok (type, name))
    (htype : IsType type) (hname : IsSegment name) (hinner : IsArgumentList inner) :
    IsSignature cs := by
  obtain ⟨rfl, _⟩ := cutArguments_eq_ok_iff.1 hcut
  obtain ⟨before, c, space, rfl, hc, _, _, hspace, htrim⟩ := cutName_eq_ok_iff.1 hcutName
  obtain ⟨left, right, hleft, hright, rfl⟩ := (Text.trimsTo_iff.2 htrim.symm).parts
  cases left with
  | cons d left =>
    -- the whole text does not begin with a blank
    have hd := hhead d rfl
    rw [hleft d List.mem_cons_self] at hd
    cases hd
  | nil =>
    have hgap : IsBlankText (right ++ [c]) :=
      List.forall_mem_append.2 ⟨hright, List.forall_mem_singleton.2 hc⟩
    have hparts := IsSignature.parts htype hgap (by simp) hname hspace hinner
    simpa using hparts

theorem exists_cuts (h : IsSignature cs) :
    ∃ head inner type name, cutArguments cs = .ok (head, inner) ∧
      cutName head = .ok (type, name) ∧ IsType type ∧ IsSegment name ∧ IsArgumentList inner := by
  cases h with
  | @parts type gap name space arguments htype hgap hne hname hspace harguments =>
    have hchars : ∀ c ∈ type ++ gap ++ name ++ space, IsTypeChar c := by
      simp only [List.forall_mem_append]
      exact ⟨⟨⟨htype.isTypeChar, hgap.isTypeChar⟩, hname.isTypeChar⟩, hspace.isTypeChar⟩
    have hopen : '(' ∉ type ++ gap ++ name ++ space :=
      fun hmem => not_isTypeChar_of_mem (by decide) (hchars _ hmem)
    refine ⟨_, arguments, type, name,
      cutArguments_eq_ok_iff.2 ⟨rfl, hopen, harguments.paren_not_mem⟩,
      cutName_eq_ok_iff.2 ?_, htype, hname, harguments⟩
    -- the last blank in front of the name is the last one of the gap
    obtain ⟨front, c, rfl⟩ := (List.eq_nil_or_concat' gap).resolve_left hne
    obtain ⟨hfront, hc⟩ := List.forall_mem_append.1 hgap
    have htrim : Text.trimWhile Unicode.isBlank ([] ++ type ++ front) = type := by
      rw [Text.trimWhile_append (List.forall_mem_nil _) hfront, htype.trimsTo.trimWhile_eq]
    exact ⟨type ++ front, c, space, by simp, hc c List.mem_cons_self, hname.1,
      fun d hd => isBlank_of_isPatternChar (hname.2 d hd), hspace, htrim.symm⟩

/-- A text is read as a signature exactly when it is one with blanks around it. -/
theorem exists_parse_iff {text : String} :
    (∃ signature, Signature.parse text = .ok signature) ↔
      IsSignature (Text.trimWhile Unicode.isBlank text.toList) := by
  rw [exists_parse_iff_cuts]
  constructor
  · rintro ⟨head, inner, type, name, hcut, hcutName, htype, hname, hinner⟩
    have hhead := (Text.trimsTo_trimWhile Unicode.isBlank text.toList).head
    exact isSignature_of_cuts hhead hcut hcutName htype hname hinner
  · exact exists_cuts

end Signature

/-! ## Patterns of rules -/

theorem exists_trimsTo_iff {P : List Char → Prop} :
    (∃ core, Text.TrimsTo Unicode.isBlank cs core ∧ P core) ↔
      P (Text.trimWhile Unicode.isBlank cs) := by
  constructor
  · rintro ⟨core, htrim, h⟩
    rwa [htrim.trimWhile_eq]
  · intro h
    exact ⟨_, Text.trimsTo_trimWhile _ cs, h⟩

/-- **Which texts are patterns.** A rule accepts a text as a signature exactly when the text without
the blanks at its ends is a signature by the grammar, and as a type pattern exactly when it is a
type. For every other text the rule is rejected, and the error holds the text as it was given. -/
theorem compile_accepts_grammar (text : String) :
    ((∃ signature, Signature.compile text = .ok signature) ↔
      ∃ core, Text.TrimsTo Unicode.isBlank text.toList core ∧ IsSignature core) ∧
    ((∃ cause, Signature.compile text = .error (.malformed text cause)) ↔
      ¬ ∃ core, Text.TrimsTo Unicode.isBlank text.toList core ∧ IsSignature core) ∧
    ((∃ pattern, TypePattern.compile text = .ok pattern) ↔
      ∃ core, Text.TrimsTo Unicode.isBlank text.toList core ∧ IsType core) ∧
    ((∃ cause, TypePattern.compile text = .error (.malformed text cause)) ↔
      ¬ ∃ core, Text.TrimsTo Unicode.isBlank text.toList core ∧ IsType core) := by
  rw [exists_trimsTo_iff, exists_trimsTo_iff, ← Signature.exists_parse_iff,
    ← TypePattern.exists_parse_iff]
  exact ⟨exists_mapError_eq_ok_iff, exists_mapError_eq_error_iff, exists_mapError_eq_ok_iff,
    exists_mapError_eq_error_iff⟩

end CallRefactor
