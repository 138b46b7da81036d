import CallRefactor.Pattern.Regex
import Mathlib.Computability.Language

/-!
# The language of a regular expression

A regular expression stands for a language, built up along the expression from products and
iterations of languages. The derivatives of an expression by a character stand for what is left of
its words that begin with that character, and so an expression accepts exactly the words of its
language.

An expression avoids a character that is in none of its classes. Then no word of it has the
character, and a text in which such words are joined by the character can be taken apart again.

Main statements: `accepts_iff`, and `not_mem_of_avoids`.
-/

open scoped Computability

namespace CallRefactor.Pattern.Regex

variable {c : Char} {k : CharClass} {r s : Regex} {w : List Char}

/-- The words of an expression. -/
def language : Regex → Language Char
  | empty => 1
  | char k => {w | ∃ c, w = [c] ∧ k.has c = true}
  | append r s => r.language * s.language
  | star r => r.language∗
  | optional r => 1 + r.language

/-! ## Words, constructor by constructor -/

theorem mem_empty_iff : w ∈ empty.language ↔ w = [] :=
  Language.mem_one w

theorem mem_char_iff : w ∈ (char k).language ↔ ∃ c, w = [c] ∧ k.has c = true :=
  Iff.rfl

theorem mem_append_iff :
    w ∈ (r ++ s).language ↔ ∃ u v, w = u ++ v ∧ u ∈ r.language ∧ v ∈ s.language := by
  show w ∈ r.language * s.language ↔ _
  rw [Language.mem_mul]
  constructor
  · rintro ⟨u, hu, v, hv, rfl⟩
    exact ⟨u, v, rfl, hu, hv⟩
  · rintro ⟨u, v, rfl, hu, hv⟩
    exact ⟨u, hu, v, hv, rfl⟩

theorem mem_star_iff :
    w ∈ (star r).language ↔
      ∃ words : List (List Char), w = words.flatten ∧ ∀ u ∈ words, u ∈ r.language :=
  Language.mem_kstar

theorem mem_optional_iff : w ∈ (optional r).language ↔ w = [] ∨ w ∈ r.language :=
  Language.mem_add _ _ w

/-! ## Derivatives -/

theorem nullable_iff : r.nullable = true ↔ [] ∈ r.language := by
  induction r with
  | empty => exact ⟨fun _ => mem_empty_iff.2 rfl, fun _ => rfl⟩
  | char k =>
    constructor
    · exact nofun
    · rintro ⟨c, hnil, _⟩
      cases hnil
  | append r s ihr ihs =>
    show (r.nullable && s.nullable) = true ↔ [] ∈ (r ++ s).language
    rw [Bool.and_eq_true, ihr, ihs, mem_append_iff]
    constructor
    · rintro ⟨hr, hs⟩
      exact ⟨[], [], rfl, hr, hs⟩
    · rintro ⟨u, v, hnil, hr, hs⟩
      obtain ⟨rfl, rfl⟩ := List.append_eq_nil_iff.1 hnil.symm
      exact ⟨hr, hs⟩
  | star r _ => exact ⟨fun _ => Language.nil_mem_kstar _, fun _ => rfl⟩
  | optional r _ => exact ⟨fun _ => mem_optional_iff.2 (.inl rfl), fun _ => rfl⟩

/-- The first character of a word of two parts belongs to the first part, unless that is empty. -/
theorem cons_mem_append_iff :
    c :: w ∈ (r ++ s).language ↔
      (∃ u v, w = u ++ v ∧ c :: u ∈ r.language ∧ v ∈ s.language) ∨
        [] ∈ r.language ∧ c :: w ∈ s.language := by
  rw [mem_append_iff]
  constructor
  · rintro ⟨u, v, hw, hu, hv⟩
    rcases List.cons_eq_append_iff.1 hw with ⟨rfl, rfl⟩ | ⟨u, rfl, rfl⟩
    · exact .inr ⟨hu, hv⟩
    · exact .inl ⟨u, v, rfl, hu, hv⟩
  · rintro (⟨u, v, rfl, hu, hv⟩ | ⟨hnil, hw⟩)
    · exact ⟨c :: u, v, rfl, hu, hv⟩
    · exact ⟨[], c :: w, rfl, hnil, hw⟩

theorem cons_mem_star_iff :
    c :: w ∈ (star r).language ↔
      ∃ u v, w = u ++ v ∧ c :: u ∈ r.language ∧ v ∈ (star r).language := by
  constructor
  · intro h
    -- of the words that make it up, only those that are not empty count
    obtain ⟨words, hw, hwords⟩ := Language.mem_kstar_iff_exists_nonempty.1 h
    cases words with
    | nil => cases hw
    | cons first words =>
      obtain ⟨⟨hfirst, hne⟩, hrest⟩ := List.forall_mem_cons.1 hwords
      obtain ⟨d, u, rfl⟩ := List.exists_cons_of_ne_nil hne
      obtain ⟨rfl, rfl⟩ := List.cons.inj hw
      exact ⟨u, words.flatten, rfl, hfirst,
        mem_star_iff.2 ⟨words, rfl, fun v hv => (hrest v hv).1⟩⟩
  · rintro ⟨u, v, rfl, hu, hv⟩
    obtain ⟨words, rfl, hwords⟩ := mem_star_iff.1 hv
    exact mem_star_iff.2 ⟨(c :: u) :: words, rfl, List.forall_mem_cons.2 ⟨hu, hwords⟩⟩

/-- What an expression behind each of several others stands for. -/
theorem exists_mem_map_append_iff {rs : List Regex} :
    (∃ t ∈ rs.map (· ++ s), w ∈ t.language) ↔
      ∃ u v, w = u ++ v ∧ (∃ r ∈ rs, u ∈ r.language) ∧ v ∈ s.language := by
  constructor
  · rintro ⟨t, ht, hw⟩
    obtain ⟨r, hr, rfl⟩ := List.mem_map.1 ht
    obtain ⟨u, v, rfl, hu, hv⟩ := mem_append_iff.1 hw
    exact ⟨u, v, rfl, ⟨r, hr, hu⟩, hv⟩
  · rintro ⟨u, v, rfl, ⟨r, hr, hu⟩, hv⟩
    exact ⟨_, List.mem_map_of_mem hr, mem_append_iff.2 ⟨u, v, rfl, hu, hv⟩⟩

/-- The derivatives of an expression stand for what is left behind the first character. -/
theorem exists_mem_derivatives_iff :
    (∃ t ∈ derivatives c r, w ∈ t.language) ↔ c :: w ∈ r.language := by
  induction r generalizing w with
  | empty => exact ⟨nofun, nofun⟩
  | char k =>
    rw [derivatives, mem_char_iff]
    constructor
    · rintro ⟨t, ht, hw⟩
      split at ht
      · next hc =>
        obtain rfl := List.mem_singleton.1 ht
        exact ⟨c, by rw [mem_empty_iff.1 hw], hc⟩
      · cases ht
    · rintro ⟨d, hcw, hd⟩
      obtain ⟨rfl, rfl⟩ := List.cons.inj hcw
      rw [if_pos hd]
      exact ⟨empty, List.mem_singleton_self _, mem_empty_iff.2 rfl⟩
  | append r s ihr ihs =>
    show _ ↔ c :: w ∈ (r ++ s).language
    rw [derivatives, cons_mem_append_iff, ← nullable_iff]
    simp only [List.mem_append, or_and_right, exists_or, exists_mem_map_append_iff, ihr]
    refine or_congr Iff.rfl ?_
    by_cases hr : r.nullable = true
    · rw [if_pos hr, ihs, and_iff_right hr]
    · rw [if_neg hr]
      exact ⟨nofun, fun h => absurd h.1 hr⟩
  | star r ih =>
    rw [derivatives, exists_mem_map_append_iff, cons_mem_star_iff]
    simp only [ih]
  | optional r ih =>
    rw [derivatives, ih, mem_optional_iff]
    exact ⟨.inr, fun h => h.resolve_left (List.cons_ne_nil c w)⟩

/-- What is kept while a text is read stands for what may follow. -/
theorem exists_mem_rest_iff {states : List Regex} (cs : List Char) :
    (∃ t ∈ rest states cs, w ∈ t.language) ↔ ∃ r ∈ states, cs ++ w ∈ r.language := by
  induction cs generalizing states with
  | nil => exact Iff.rfl
  | cons c cs ih =>
    show (∃ t ∈ rest (states.flatMap (derivatives c)).eraseDups cs, w ∈ t.language) ↔ _
    rw [ih]
    constructor
    · rintro ⟨t, ht, hw⟩
      obtain ⟨r, hr, ht⟩ := List.mem_flatMap.1 (List.mem_eraseDups.1 ht)
      exact ⟨r, hr, exists_mem_derivatives_iff.1 ⟨t, ht, hw⟩⟩
    · rintro ⟨r, hr, hw⟩
      obtain ⟨t, ht, hw⟩ := exists_mem_derivatives_iff.2 hw
      exact ⟨t, List.mem_eraseDups.2 (List.mem_flatMap.2 ⟨r, hr, ht⟩), hw⟩

/-- **An expression accepts exactly its words.** -/
theorem accepts_iff : r.accepts w = true ↔ w ∈ r.language := by
  have hrest : (∃ t ∈ rest [r] w, [] ∈ t.language) ↔ w ∈ r.language := by
    simp [exists_mem_rest_iff]
  unfold accepts
  simp only [List.any_eq_true, nullable_iff, hrest]

/-! ## Words made of other words -/

/-- A repetition of an expression each of whose words comes from some `x`. -/
theorem mem_star_iff_flatMap {β : Type} {P : β → Prop} {f : β → List Char}
    (h : ∀ u, u ∈ r.language ↔ ∃ x, u = f x ∧ P x) :
    w ∈ (star r).language ↔ ∃ xs : List β, w = xs.flatMap f ∧ ∀ x ∈ xs, P x := by
  rw [mem_star_iff]
  constructor
  · rintro ⟨words, rfl, hwords⟩
    induction words with
    | nil => exact ⟨[], rfl, nofun⟩
    | cons u words ih =>
      obtain ⟨hu, hrest⟩ := List.forall_mem_cons.1 hwords
      obtain ⟨xs, hxs, hall⟩ := ih hrest
      obtain ⟨x, rfl, hx⟩ := (h u).1 hu
      exact ⟨x :: xs, by rw [List.flatten_cons, hxs, List.flatMap_cons],
        List.forall_mem_cons.2 ⟨hx, hall⟩⟩
  · rintro ⟨xs, rfl, hxs⟩
    refine ⟨xs.map f, List.flatMap_def, fun u hu => ?_⟩
    obtain ⟨x, hx, rfl⟩ := List.mem_map.1 hu
    exact (h (f x)).2 ⟨x, rfl, hxs x hx⟩

theorem mem_star_char_iff : w ∈ (star (char k)).language ↔ ∀ c ∈ w, k.has c = true := by
  rw [mem_star_iff_flatMap fun _ => mem_char_iff]
  simp [List.flatMap_singleton']

theorem mem_plus_char_iff :
    w ∈ (plus (char k)).language ↔ w ≠ [] ∧ ∀ c ∈ w, k.has c = true := by
  unfold plus
  rw [mem_append_iff]
  simp only [mem_star_char_iff]
  constructor
  · rintro ⟨_, v, rfl, ⟨c, rfl, hc⟩, hv⟩
    exact ⟨List.cons_ne_nil c v, List.forall_mem_cons.2 ⟨hc, hv⟩⟩
  · rintro ⟨hne, hw⟩
    obtain ⟨c, v, rfl⟩ := List.exists_cons_of_ne_nil hne
    obtain ⟨hc, hv⟩ := List.forall_mem_cons.1 hw
    exact ⟨[c], v, rfl, ⟨c, rfl, hc⟩, hv⟩

theorem mem_plus_noneOf_iff : w ∈ (plus (char (.noneOf [c]))).language ↔ w ≠ [] ∧ c ∉ w := by
  rw [mem_plus_char_iff]
  refine and_congr_right fun _ => ?_
  simp only [CharClass.has]
  constructor
  · intro h hmem
    simpa using h c hmem
  · intro h d hd
    simpa using fun heq : d = c => h (heq ▸ hd)

theorem mem_char_exactly_iff : w ∈ (char (.exactly c)).language ↔ w = [c] := by
  rw [mem_char_iff]
  constructor
  · rintro ⟨d, rfl, hd⟩
    rw [of_decide_eq_true hd]
  · rintro rfl
    exact ⟨c, rfl, decide_eq_true rfl⟩

theorem mem_ofText_iff {cs : List Char} : w ∈ (ofText cs).language ↔ w = cs := by
  induction cs generalizing w with
  | nil => exact mem_empty_iff
  | cons c cs ih =>
    show w ∈ (char (.exactly c) ++ ofText cs).language ↔ _
    rw [mem_append_iff]
    simp only [mem_char_exactly_iff, ih]
    constructor
    · rintro ⟨_, _, rfl, rfl, rfl⟩
      rfl
    · rintro rfl
      exact ⟨[c], cs, rfl, rfl, rfl⟩

/-! ## Characters that no word has -/

/-- Whether a character is in none of the classes of an expression. -/
def avoids (c : Char) : Regex → Bool
  | empty => true
  | char k => !k.has c
  | append r s => avoids c r && avoids c s
  | star r => avoids c r
  | optional r => avoids c r

theorem avoids_append (c : Char) (r s : Regex) :
    avoids c (r ++ s) = (avoids c r && avoids c s) := rfl

/-- No word of an expression has a character that the expression avoids. -/
theorem not_mem_of_avoids (h : r.avoids c = true) (hw : w ∈ r.language) : c ∉ w := by
  induction r generalizing w with
  | empty =>
    rw [mem_empty_iff.1 hw]
    exact List.not_mem_nil
  | char k =>
    obtain ⟨d, rfl, hd⟩ := hw
    rw [List.mem_singleton]
    rintro rfl
    rw [avoids, hd] at h
    cases h
  | append r s ihr ihs =>
    obtain ⟨hr, hs⟩ := Bool.and_eq_true_iff.1 h
    obtain ⟨u, v, rfl, hu, hv⟩ := mem_append_iff.1 hw
    rw [List.mem_append, not_or]
    exact ⟨ihr hr hu, ihs hs hv⟩
  | star r ih =>
    obtain ⟨words, rfl, hwords⟩ := mem_star_iff.1 hw
    rw [List.mem_flatten]
    rintro ⟨u, hu, hc⟩
    exact ih h (hwords u hu) hc
  | optional r ih =>
    rcases mem_optional_iff.1 hw with rfl | hw
    · exact List.not_mem_nil
    · exact ih h hw

end CallRefactor.Pattern.Regex
