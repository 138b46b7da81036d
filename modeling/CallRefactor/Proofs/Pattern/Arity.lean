import CallRefactor.Proofs.Pattern.TypeGrammar
import CallRefactor.Proofs.Pattern.Types

/-!
# How many arguments a signature fits

Every element of an argument list takes one argument, and the ellipsis takes any number of them. So
a signature without an ellipsis fits calls with as many arguments as it has elements, and with an
ellipsis it fits calls with at least as many as it has other elements.

There is one way around this. Argument types are compared joined by commas, and the empty text is
both what no types at all are joined to and what one empty type is. A single star never stands for
the empty type, but two stars do, since each of them stands for any run of characters. An element
that is hollow in this way, and is alone but for an ellipsis, fits a call without arguments.

Main statements: `Gapped.aligns_singleton_iff`, `TypePattern.matchesType_nil_iff`, the elements that
fit the empty type, and `Signature.matchesArguments_admits_iff`.
-/

namespace CallRefactor.Pattern

/-! ## Patterns that fit little -/

namespace Gapped

variable {α β : Type} {test : β → α → Bool} {skips : α → Bool} {p : List (Item β)} {a : α}

/-- An element that no gap may skip is taken by the one item that is no gap. -/
theorem aligns_singleton_iff (ha : skips a = false) :
    Aligns test skips p [a] ↔ ∃ b, tests p = [b] ∧ test b a = true := by
  induction p with
  | nil => exact ⟨nofun, nofun⟩
  | cons item p ih =>
    cases item with
    | one b =>
      rw [aligns_one_iff]
      constructor
      · rintro ⟨_, _, heq, hb, hrest⟩
        obtain ⟨rfl, rfl⟩ := List.cons.inj heq
        exact ⟨b, by rw [tests, aligns_nil_iff.1 hrest], hb⟩
      · rintro ⟨c, hc, htest⟩
        obtain ⟨rfl, hp⟩ := List.cons.inj hc
        exact ⟨a, [], rfl, htest, aligns_nil_iff.2 hp⟩
    | gap =>
      rw [tests, ← ih]
      constructor
      · intro h
        cases h with
        | close rest => exact rest
        | skip h _ =>
          rw [ha] at h
          cases h
      · exact .close

end Gapped

open Gapped

/-! ## Segments that stand for nothing -/

/-- Two stars or more, and nothing else. -/
def IsStars (cs : List Char) : Prop := 2 ≤ cs.length ∧ ∀ c ∈ cs, c = '*'

instance (cs : List Char) : Decidable (IsStars cs) :=
  @instDecidableAnd _ _ _ (List.decidableBAll (· = '*') cs)

variable {cs segment : List Char}

theorem IsStars.isSegment (h : IsStars cs) : IsSegment cs := by
  refine ⟨?_, fun c hc => h.2 c hc ▸ isPatternChar_star⟩
  rintro rfl
  exact absurd h.1 (by decide)

/-- What comes out is empty only if there are stars alone and nothing replaces them. -/
theorem fill_eq_nil {runs : List (List Char)} (hlength : runs.length = cs.count '*')
    (h : Glob.fill cs runs = []) : (∀ c ∈ cs, c = '*') ∧ ∀ run ∈ runs, run = [] := by
  induction cs generalizing runs with
  | nil => exact ⟨nofun, by simp [List.length_eq_zero_iff.1 hlength]⟩
  | cons c cs ih =>
    rw [Glob.fill] at h
    split at h
    · next hc =>
      rw [hc, List.count_cons_self] at hlength
      obtain ⟨run, runs, rfl⟩ := List.exists_cons_of_length_eq_add_one hlength
      obtain ⟨hrun, hrest⟩ := List.append_eq_nil_iff.1 h
      obtain ⟨hcs, hruns⟩ := ih (Nat.succ.inj hlength) hrest
      exact ⟨List.forall_mem_cons.2 ⟨hc, hcs⟩, List.forall_mem_cons.2 ⟨hrun, hruns⟩⟩
    · cases h

theorem fill_replicate_nil (h : ∀ c ∈ cs, c = '*') :
    Glob.fill cs (List.replicate cs.length []) = [] := by
  induction cs with
  | nil => rfl
  | cons c cs ih =>
    obtain ⟨hc, hcs⟩ := List.forall_mem_cons.1 h
    rw [Glob.fill, if_pos hc]
    exact ih hcs

/-- A segment stands for the empty word if it is two stars or more. A single star does not. -/
theorem standsFor_nil_iff (hne : segment ≠ []) : StandsFor segment [] ↔ IsStars segment := by
  constructor
  · rintro ⟨runs, hlength, _, hsingle, hfill⟩
    obtain ⟨hstars, hruns⟩ := fill_eq_nil hlength hfill
    refine ⟨?_, hstars⟩
    rcases segment with _ | ⟨c, _ | ⟨d, rest⟩⟩
    · exact absurd rfl hne
    · obtain rfl : c = '*' := hstars c List.mem_cons_self
      obtain ⟨run, rfl⟩ := List.length_eq_one_iff.1 hlength
      obtain rfl : run = [] := hruns run List.mem_cons_self
      exact absurd List.mem_cons_self (hsingle rfl)
    · simp
  · rintro ⟨hlength, hstars⟩
    have hcount : segment.count '*' = segment.length :=
      List.count_eq_length.2 fun c hc => (hstars c hc).symm
    refine ⟨List.replicate segment.length [], by rw [List.length_replicate, hcount], ?_, ?_,
      fill_replicate_nil hstars⟩
    · intro run hrun
      rw [List.eq_of_mem_replicate hrun]
      exact nofun
    · rintro rfl
      exact absurd hlength (by decide)

theorem takes_nil_iff {w : Word} (hne : w.segment ≠ []) :
    w.Takes [] ↔ w.dimensions = 0 ∧ IsStars w.segment := by
  rw [← standsFor_nil_iff hne]
  constructor
  · rintro ⟨stem, hword, hstem⟩
    obtain ⟨rfl, hbrackets⟩ := List.append_eq_nil_iff.1 hword.symm
    refine ⟨?_, hstem⟩
    cases hdimensions : w.dimensions with
    | zero => rfl
    | succ count => rw [hdimensions] at hbrackets; cases hbrackets
  · rintro ⟨hdimensions, hstem⟩
    exact ⟨[], by rw [hdimensions]; rfl, hstem⟩

/-! ## Patterns that fit the empty type -/

/-- A type pattern of stars alone, two of them at least, in front of which a star and two dots may
stand. -/
def IsHollow (cs : List Char) : Prop :=
  IsStars cs ∨ ∃ stars, cs = ['*', '.', '.'] ++ stars ∧ IsStars stars

theorem Outline.matchesPath_nil_iff {o : Outline}
    (h : ∀ segment ∈ o.first :: o.later.map Step.item, IsSegment segment) :
    o.path.matchesPath [] = true ↔ o.later = [] ∧ o.dimensions = 0 ∧ IsStars o.first := by
  have hitems : tests o.path = o.steps.map fun step => step.item.glob := by
    unfold Outline.path
    rw [tests_ofSteps, List.map_map]
    rfl
  have hsplit : Text.splitOn '.' [] = [[]] := rfl
  rw [Outline.matchesPath_iff_aligns h, hsplit, aligns_singleton_iff rfl, hitems]
  have hne : o.first ≠ [] := (h o.first List.mem_cons_self).1
  obtain ⟨leading, first, later, dimensions⟩ := o
  cases later with
  | nil =>
    have hword := takes_nil_iff (w := ⟨first, dimensions⟩) hne
    rw [← accepts_word_iff] at hword
    constructor
    · rintro ⟨glob, hglob, hmatches⟩
      obtain rfl : Word.glob ⟨first, dimensions⟩ = glob := (List.cons.inj hglob).1
      exact ⟨rfl, hword.1 hmatches⟩
    · rintro ⟨-, hstars⟩
      exact ⟨_, rfl, hword.2 hstars⟩
  | cons step later =>
    constructor
    · rintro ⟨glob, hglob, -⟩
      have hlength := congrArg List.length hglob
      cases later <;> simp [Outline.steps, bracketed] at hlength
    · rintro ⟨hnil, -⟩
      cases hnil

/-- Two stars or more are a segment by themselves, also behind a star and two dots. -/
theorem IsStars.spells (leading : Bool) (h : IsStars cs) :
    Outline.Spells ⟨leading, cs, [], 0⟩ ((if leading then ['*', '.', '.'] else []) ++ cs) where
  segments := List.forall_mem_singleton.2 h.isSegment
  leading := by
    cases leading with
    | true => exact fun _ => rfl
    | false =>
      rintro ⟨rest, hrest⟩
      replace hrest : ['*', '.', '.'] ++ rest = cs := by simpa [Outline.base] using hrest
      exact absurd (h.2 '.' (by simp [← hrest])) (by decide)
  text := ⟨[], .nil, by simp [Outline.base]⟩

theorem Path.matchesPath_nil_iff {path : Path} (h : Path.parse cs = .ok path)
    (hlast : ∀ c ∈ cs.getLast?, Unicode.isBlank c = false) :
    path.matchesPath [] = true ↔ IsHollow cs := by
  have hspells : ∀ (leading : Bool) stars, IsStars stars →
      cs = (if leading then ['*', '.', '.'] else []) ++ stars → path.matchesPath [] = true := by
    rintro leading stars hstars rfl
    obtain rfl := Except.ok.inj ((hstars.spells leading).parse_eq.symm.trans h)
    exact (Outline.matchesPath_nil_iff (hstars.spells leading).segments).2 ⟨rfl, rfl, hstars⟩
  constructor
  · intro hmatches
    obtain ⟨o, ho, rfl⟩ := Path.exists_spells h
    obtain ⟨tail, htail, rfl⟩ := ho.text
    obtain ⟨leading, first, later, dimensions⟩ := o
    obtain ⟨rfl, rfl, hstars⟩ := (Outline.matchesPath_nil_iff ho.segments).1 hmatches
    -- without brackets only blanks can follow, and none do
    obtain rfl : tail = [] := by
      cases htail with
      | nil => rfl
      | blank _ hc =>
        rw [hlast _ (by simp)] at hc
        cases hc
    cases leading with
    | false => exact .inl (by simpa [Outline.base] using hstars)
    | true => exact .inr ⟨first, by simp [Outline.base], hstars⟩
  · rintro (hstars | ⟨stars, hcs, hstars⟩)
    · exact hspells false cs hstars rfl
    · exact hspells true stars hstars hcs

end CallRefactor.Pattern

namespace CallRefactor

open Pattern Gapped

/-- A type pattern fits the empty type exactly when it is hollow. -/
theorem TypePattern.matchesType_nil_iff {text : String} {pattern : TypePattern}
    (h : TypePattern.parse text = .ok pattern) :
    pattern.matchesType [] = true ↔ IsHollow (Text.trimWhile Unicode.isBlank text.toList) := by
  obtain ⟨path, hpath, rfl⟩ := TypePattern.parse_eq_ok h
  rw [← Path.matchesPath_nil_iff hpath (Text.trimsTo_trimWhile _ _).last,
    TypePattern.matchesType_iff]
  refine or_iff_left ?_
  rintro ⟨_, rest, hrest, _⟩
  cases hrest

namespace ArgumentsPattern

variable {cs : List Char} {es : List (List Char)} {pattern : ArgumentsPattern}
  {types : List String}

/-! ## Numbers of arguments -/

/-- The numbers of arguments that elements admit: one for each of them, or with an ellipsis at least
one for each of the others. -/
def Admits (es : List (List Char)) (count : Nat) : Prop :=
  if ellipsis ∈ es then es.length - 1 ≤ count else count = es.length

instance (es : List (List Char)) (count : Nat) : Decidable (Admits es count) :=
  inferInstanceAs (Decidable (if ellipsis ∈ es then es.length - 1 ≤ count else count = es.length))

/-- The only element, or the only one beside an ellipsis, is hollow. -/
def LoneHollow (es : List (List Char)) : Prop :=
  ∃ e, es.filter (· ≠ ellipsis) = [e] ∧ IsHollow e

theorem length_filter_add_count (es : List (List Char)) :
    (es.filter (· ≠ ellipsis)).length + es.count ellipsis = es.length := by
  rw [← List.countP_eq_length_filter, List.count, Nat.add_comm,
    List.length_eq_countP_add_countP (· == ellipsis)]
  simp

/-- No arguments are admitted where there is no element but an ellipsis. -/
theorem admits_zero_iff (hcount : es.count ellipsis ≤ 1) :
    Admits es 0 ↔ es.filter (· ≠ ellipsis) = [] := by
  have hlength := length_filter_add_count es
  rw [← List.length_eq_zero_iff]
  unfold Admits
  split
  · next hmem =>
    have hpos := List.count_pos_iff.2 hmem
    omega
  · next hmem =>
    have hzero := List.count_eq_zero.2 hmem
    omega

theorem LoneHollow.not_admits_zero (hcount : es.count ellipsis ≤ 1) (h : LoneHollow es) :
    ¬ Admits es 0 := by
  obtain ⟨e, he, _⟩ := h
  rw [admits_zero_iff hcount, he]
  exact List.cons_ne_nil e []

/-! ## Calls with arguments -/

/-- Types that fit an argument list are as many as it admits. -/
theorem admits_of_aligns (h : parse cs = .ok pattern) (htypes : ∀ type ∈ types, type ≠ "")
    (haligns : Aligns TypePattern.matchesType (fun piece => !piece.isEmpty) pattern
      (types.map String.toList)) : Admits (elements cs) types.length := by
  unfold Admits
  split
  · next hmem =>
    obtain ⟨before, after, hcs⟩ := List.append_of_mem hmem
    obtain ⟨front, between, back, rfl, hfront, hback⟩ :=
      (aligns_iff_of_eq_append h hcs htypes).1 haligns
    have hbefore := hfront.length_eq
    have hafter := hback.length_eq
    simp only [hcs, List.length_append, List.length_cons]
    omega
  · next hmem => exact ((aligns_iff_of_not_mem h hmem).1 haligns).length_eq.symm

/-! ## Calls without arguments -/

/-- The elements other than the ellipsis are read as the type patterns that are tested for. -/
theorem forall₂_tests (h : es.mapM element = .ok pattern) :
    List.Forall₂ (fun cs p => TypePattern.parse (String.ofList cs) = .ok p)
      (es.filter (· ≠ ellipsis)) (tests pattern) := by
  replace h := mapM_eq_ok_iff.1 h
  induction h with
  | nil => exact .nil
  | @cons e item es pattern he _ ih =>
    by_cases hellipsis : e = ellipsis
    · subst hellipsis
      obtain rfl : Item.gap = item := Except.ok.inj he
      rwa [List.filter_cons_of_neg (by simp)]
    · obtain ⟨p, hp, rfl⟩ := element_eq_ok hellipsis he
      rw [List.filter_cons_of_pos (by simpa using hellipsis)]
      exact .cons hp ih

theorem trimWhile_of_mem_elements {e : List Char} (he : e ∈ elements cs) :
    Text.trimWhile Unicode.isBlank e = e := by
  unfold elements at he
  simp only at he
  split at he
  · cases he
  · obtain ⟨piece, _, rfl⟩ := List.mem_map.1 he
    exact Text.trimWhile_trimWhile _ piece

theorem matchesJoined_nil_iff (h : parse cs = .ok pattern) :
    pattern.matchesJoined [] = true ↔
      tests pattern = [] ∨ ∃ p, tests pattern = [p] ∧ p.matchesType [] = true := by
  have hsplit : Text.splitOn ',' [] = [[]] := rfl
  rw [matchesJoined_iff_aligns h, hsplit, aligns_singleton_iff rfl, and_iff_right rfl]

/-- A call without arguments fits an argument list that admits it, and one in which a hollow element
is alone but for an ellipsis. -/
theorem matchesJoined_nil_iff_admits (h : parse cs = .ok pattern) :
    pattern.matchesJoined [] = true ↔ Admits (elements cs) 0 ∨ LoneHollow (elements cs) := by
  obtain ⟨helements, hcount⟩ := parse_eq_ok h
  have htests := forall₂_tests helements
  have hhollow : ∀ e p, e ∈ elements cs → TypePattern.parse (String.ofList e) = .ok p →
      (p.matchesType [] = true ↔ IsHollow e) := by
    intro e p he hp
    rw [TypePattern.matchesType_nil_iff hp, String.toList_ofList, trimWhile_of_mem_elements he]
  rw [matchesJoined_nil_iff h, admits_zero_iff hcount]
  refine or_congr ?_ ?_
  · rw [← List.length_eq_zero_iff, ← htests.length_eq, List.length_eq_zero_iff]
  · have hmem : ∀ {e}, (elements cs).filter (· ≠ ellipsis) = [e] → e ∈ elements cs := fun he =>
      List.mem_of_mem_filter (he ▸ List.mem_cons_self)
    unfold LoneHollow
    constructor
    · rintro ⟨p, hp, hmatches⟩
      rw [hp] at htests
      generalize hes : (elements cs).filter (· ≠ ellipsis) = others at htests
      cases htests with
      | @cons e _ _ _ hparse hrest =>
        cases hrest
        exact ⟨e, rfl, (hhollow e p (hmem hes) hparse).1 hmatches⟩
    · rintro ⟨e, he, hstars⟩
      rw [he] at htests
      generalize hps : tests pattern = ps at htests
      cases htests with
      | @cons _ p _ _ hparse hrest =>
        cases hrest
        exact ⟨p, rfl, (hhollow e p (hmem he) hparse).2 hstars⟩

end ArgumentsPattern

/-! ## Signatures -/

/-- **How many arguments a signature fits.** The argument types that it fits are as many as its
elements admit, unless there are none and a hollow element is alone but for an ellipsis. It fits a
call without arguments exactly when its elements admit that, or a hollow one is alone so. -/
theorem Signature.matchesArguments_admits_iff {text : String} {signature : Signature}
    (h : Signature.parse text = .ok signature) :
    (∀ types : List String, (∀ type ∈ types, type ≠ "" ∧ ',' ∉ type.toList) →
      signature.matchesArguments (",".intercalate types) = true →
      (ArgumentsPattern.Admits (Signature.elements text) types.length ↔
        ¬ (types = [] ∧ ArgumentsPattern.LoneHollow (Signature.elements text)))) ∧
    (signature.matchesArguments (",".intercalate []) = true ↔
      ArgumentsPattern.Admits (Signature.elements text) 0 ∨
        ArgumentsPattern.LoneHollow (Signature.elements text)) := by
  obtain ⟨texts, htexts, _, _, hparse⟩ := Signature.parse_eq_ok h
  rw [Signature.elements_eq htexts]
  have hnone : signature.matchesArguments (",".intercalate []) = true ↔
      ArgumentsPattern.Admits (ArgumentsPattern.elements texts.arguments) 0 ∨
        ArgumentsPattern.LoneHollow (ArgumentsPattern.elements texts.arguments) :=
    ArgumentsPattern.matchesJoined_nil_iff_admits hparse
  refine ⟨fun types htypes hmatches => ?_, hnone⟩
  by_cases hempty : types = []
  · subst hempty
    constructor
    · rintro hadmits ⟨-, hlone⟩
      exact hlone.not_admits_zero (ArgumentsPattern.parse_eq_ok hparse).2 hadmits
    · intro hnot
      exact (hnone.1 hmatches).resolve_right fun hlone => hnot ⟨rfl, hlone⟩
  · have haligns := (ArgumentsPattern.matchesJoined_iff hparse hempty htypes).1 hmatches
    have hadmits := ArgumentsPattern.admits_of_aligns hparse
      (fun type htype => (htypes type htype).1) haligns
    exact iff_of_true hadmits fun hnot => hempty hnot.1

/-- Two arguments are as many as an element and an ellipsis admit, and a hollow element in front of
the ellipsis also fits a call without arguments, which is one too few. -/
theorem Signature.matchesArguments_admits_iff_ellipsis :
    (∃ signature, Signature.parse "T f(int, ..)" = .ok signature ∧
      signature.matchesArguments (",".intercalate ["int", "a.B"]) = true ∧
      ArgumentsPattern.Admits (Signature.elements "T f(int, ..)") 2) ∧
    ∃ signature, Signature.parse "T f(*..**, ..)" = .ok signature ∧
      signature.matchesArguments (",".intercalate []) = true ∧
      ¬ ArgumentsPattern.Admits (Signature.elements "T f(*..**, ..)") 0 := by
  constructor
  · obtain ⟨signature, h, hmatches⟩ :
        ∃ signature, Signature.parse "T f(int, ..)" = .ok signature ∧
          signature.matchesArguments (",".intercalate ["int", "a.B"]) = true :=
      ⟨_, rfl, by decide +kernel⟩
    have hcount := (Signature.matchesArguments_admits_iff h).1 ["int", "a.B"] (by decide) hmatches
    exact ⟨signature, h, hmatches, hcount.2 fun hnone => List.cons_ne_nil _ _ hnone.1⟩
  · obtain ⟨signature, h⟩ :
        ∃ signature, Signature.parse "T f(*..**, ..)" = .ok signature := ⟨_, rfl⟩
    have helements : Signature.elements "T f(*..**, ..)"
        = ["*..**".toList, ArgumentsPattern.ellipsis] := by decide +kernel
    have hlone : ArgumentsPattern.LoneHollow (Signature.elements "T f(*..**, ..)") := by
      rw [helements]
      exact ⟨"*..**".toList, by decide, .inr ⟨"**".toList, by decide, by decide⟩⟩
    obtain ⟨hcount, hnone⟩ := Signature.matchesArguments_admits_iff h
    have hmatches := hnone.2 (.inr hlone)
    exact ⟨signature, h, hmatches, fun hadmits =>
      (hcount [] (List.forall_mem_nil _) hmatches).1 hadmits ⟨rfl, hlone⟩⟩

/-- A signature with one element, two stars, fits a call without arguments. With a single star it
does not. -/
theorem Signature.not_admits_doubleStar :
    (∃ signature, Signature.parse "T f(**)" = .ok signature ∧
      signature.matchesArguments (",".intercalate []) = true ∧
      ArgumentsPattern.ellipsis ∉ Signature.elements "T f(**)" ∧
      (Signature.elements "T f(**)").length = 1) ∧
    ∃ signature, Signature.parse "T f(*)" = .ok signature ∧
      signature.matchesArguments (",".intercalate []) = false := by
  have helements : Signature.elements "T f(**)" = ["**".toList] := by decide +kernel
  refine ⟨⟨_, rfl, by decide +kernel, ?_, ?_⟩, _, rfl, by decide +kernel⟩
  · rw [helements]
    decide
  · rw [helements]
    rfl

end CallRefactor
