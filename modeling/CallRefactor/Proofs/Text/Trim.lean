import CallRefactor.Proofs.Text.Split
import Mathlib.Data.List.Basic
import Mathlib.Data.List.TakeWhile

/-!
# Trimmed texts

To trim a text is to take off the characters of one kind at its ends. What is left neither begins
nor ends with such a character, and there is only one text of which both is true.

Main statements: `trimsTo_iff`, what a trimmed text is, and `map_trimWhile_splitOn`, it makes no
difference to trimmed pieces whether the whole has been trimmed before.
-/

namespace CallRefactor.Text

variable {p : Char → Bool} {cs core before after : List Char} {mark : Char}

/-- What is left of a text when the characters at its ends that satisfy `p` are taken off. -/
structure TrimsTo (p : Char → Bool) (cs core : List Char) : Prop where
  /-- Only such characters are taken off. -/
  parts : ∃ before after, (∀ c ∈ before, p c = true) ∧ (∀ c ∈ after, p c = true) ∧
    cs = before ++ core ++ after
  /-- What is left does not begin with one. -/
  head : ∀ c ∈ core.head?, p c = false
  /-- What is left does not end with one. -/
  last : ∀ c ∈ core.getLast?, p c = false

/-! ## At the end -/

theorem head?_dropWhile (p : Char → Bool) (cs : List Char) :
    ∀ c ∈ (cs.dropWhile p).head?, p c = false := by
  intro c hc
  have hnot := List.head?_dropWhile_not p cs
  rw [Option.mem_def.1 hc] at hnot
  exact hnot

theorem dropEndWhile_append (h : ∀ c ∈ after, p c = true) (cs : List Char) :
    dropEndWhile p (cs ++ after) = dropEndWhile p cs := by
  unfold dropEndWhile
  rw [List.reverse_append, List.dropWhile_append_of_pos]
  exact fun c hc => h c (List.mem_reverse.1 hc)

theorem dropEndWhile_eq_self (h : ∀ c ∈ cs.getLast?, p c = false) : dropEndWhile p cs = cs := by
  rcases List.eq_nil_or_concat' cs with rfl | ⟨front, c, rfl⟩
  · rfl
  · have hc : ¬ p c = true := by simp [h c (by simp)]
    unfold dropEndWhile
    rw [List.reverse_concat, List.dropWhile_cons_of_neg hc, ← List.reverse_concat,
      List.reverse_reverse]

theorem exists_eq_dropEndWhile_append (p : Char → Bool) (cs : List Char) :
    ∃ after, (∀ c ∈ after, p c = true) ∧ cs = dropEndWhile p cs ++ after := by
  refine ⟨(cs.reverse.takeWhile p).reverse, fun c hc => ?_, ?_⟩
  · exact List.mem_takeWhile_imp (List.mem_reverse.1 hc)
  · unfold dropEndWhile
    rw [← List.reverse_append, List.takeWhile_append_dropWhile, List.reverse_reverse]

theorem getLast?_dropEndWhile (p : Char → Bool) (cs : List Char) :
    ∀ c ∈ (dropEndWhile p cs).getLast?, p c = false := by
  intro c hc
  unfold dropEndWhile at hc
  rw [List.getLast?_reverse] at hc
  exact head?_dropWhile p _ c hc

/-! ## At both ends -/

theorem trimsTo_trimWhile (p : Char → Bool) (cs : List Char) : TrimsTo p cs (trimWhile p cs) := by
  obtain ⟨after, hafter, hcut⟩ := exists_eq_dropEndWhile_append p (cs.dropWhile p)
  refine ⟨⟨cs.takeWhile p, after, fun c => List.mem_takeWhile_imp, hafter, ?_⟩, ?_,
    getLast?_dropEndWhile p _⟩
  · unfold trimWhile
    rw [List.append_assoc, ← hcut, List.takeWhile_append_dropWhile]
  · intro c hc
    -- what is trimmed at the end begins as it did before
    have hkept : (dropEndWhile p (cs.dropWhile p)).head? = some c := hc
    have hhead : c ∈ (cs.dropWhile p).head? := by
      rw [hcut, List.head?_append, hkept]
      rfl
    exact head?_dropWhile p cs c hhead

theorem TrimsTo.trimWhile_eq (h : TrimsTo p cs core) : trimWhile p cs = core := by
  obtain ⟨before, after, hbefore, hafter, rfl⟩ := h.parts
  unfold trimWhile
  rw [List.append_assoc, List.dropWhile_append_of_pos hbefore]
  cases core with
  | nil =>
    rw [List.nil_append, List.dropWhile_eq_nil_iff.2 hafter]
    rfl
  | cons c rest =>
    have hc : ¬ p c = true := by simp [h.head c rfl]
    rw [List.cons_append, List.dropWhile_cons_of_neg hc, ← List.cons_append,
      dropEndWhile_append hafter, dropEndWhile_eq_self h.last]

theorem trimsTo_iff : TrimsTo p cs core ↔ trimWhile p cs = core := by
  constructor
  · exact TrimsTo.trimWhile_eq
  · rintro rfl
    exact trimsTo_trimWhile p cs

theorem trimWhile_append (hbefore : ∀ c ∈ before, p c = true) (hafter : ∀ c ∈ after, p c = true)
    (cs : List Char) : trimWhile p (before ++ cs ++ after) = trimWhile p cs := by
  obtain ⟨core, htrim⟩ : ∃ core, TrimsTo p cs core := ⟨_, trimsTo_trimWhile p cs⟩
  rw [htrim.trimWhile_eq]
  obtain ⟨left, right, hleft, hright, rfl⟩ := htrim.parts
  refine TrimsTo.trimWhile_eq ⟨⟨before ++ left, right ++ after, ?_, ?_, ?_⟩, htrim.head, htrim.last⟩
  · exact List.forall_mem_append.2 ⟨hbefore, hleft⟩
  · exact List.forall_mem_append.2 ⟨hright, hafter⟩
  · simp only [List.append_assoc]

theorem trimWhile_trimWhile (p : Char → Bool) (cs : List Char) :
    trimWhile p (trimWhile p cs) = trimWhile p cs := by
  have htrim := trimsTo_trimWhile p cs
  exact TrimsTo.trimWhile_eq ⟨⟨[], [], nofun, nofun, by simp⟩, htrim.head, htrim.last⟩

theorem trimWhile_eq_nil_iff : trimWhile p cs = [] ↔ ∀ c ∈ cs, p c = true := by
  constructor
  · intro h
    obtain ⟨before, after, hbefore, hafter, hcs⟩ := (trimsTo_trimWhile p cs).parts
    rw [hcs, h, List.append_nil]
    exact List.forall_mem_append.2 ⟨hbefore, hafter⟩
  · intro h
    exact TrimsTo.trimWhile_eq ⟨⟨cs, [], h, nofun, by simp⟩, nofun, nofun⟩

/-! ## Pieces -/

theorem map_trimWhile_splitOn_append (hmark : p mark = false)
    (hbefore : ∀ c ∈ before, p c = true) (hafter : ∀ c ∈ after, p c = true) (cs : List Char) :
    (splitOn mark (before ++ cs ++ after)).map (trimWhile p)
      = (splitOn mark cs).map (trimWhile p) := by
  have hfree : ∀ {ds : List Char}, (∀ c ∈ ds, p c = true) → mark ∉ ds := by
    intro ds hds hmem
    rw [hds mark hmem] at hmark
    cases hmark
  -- the text in front goes to the first piece, and the text behind to the last one
  induction hn : cs.length using Nat.strongRecOn generalizing before cs with
  | ind n ih =>
    subst hn
    by_cases hmem : mark ∈ cs
    · obtain ⟨piece, rest, rfl, hpiece⟩ := List.eq_append_cons_of_mem hmem
      have hfirst : mark ∉ before ++ piece := by simp [hfree hbefore, hpiece]
      have hrest : (splitOn mark ([] ++ rest ++ after)).map (trimWhile p)
          = (splitOn mark rest).map (trimWhile p) :=
        ih rest.length (by simp; omega) (List.forall_mem_nil _) rest rfl
      have hcut : before ++ (piece ++ mark :: rest) ++ after
          = (before ++ piece) ++ mark :: (rest ++ after) := by simp
      have htrim : trimWhile p (before ++ piece) = trimWhile p piece := by
        rw [← trimWhile_append hbefore (List.forall_mem_nil _) piece, List.append_nil]
      rw [hcut, splitOn_append_cons hfirst, splitOn_append_cons hpiece, List.map_cons,
        List.map_cons, htrim, ← hrest]
      rfl
    · have hnone : mark ∉ before ++ cs ++ after := by simp [hfree hbefore, hfree hafter, hmem]
      rw [splitOn_of_not_mem hnone, splitOn_of_not_mem hmem, List.map_singleton,
        List.map_singleton, trimWhile_append hbefore hafter]

/-- To trim a text changes nothing about its trimmed pieces. -/
theorem map_trimWhile_splitOn (hmark : p mark = false) (cs : List Char) :
    (splitOn mark (trimWhile p cs)).map (trimWhile p) = (splitOn mark cs).map (trimWhile p) := by
  obtain ⟨core, htrim⟩ : ∃ core, TrimsTo p cs core := ⟨_, trimsTo_trimWhile p cs⟩
  rw [htrim.trimWhile_eq]
  obtain ⟨before, after, hbefore, hafter, rfl⟩ := htrim.parts
  exact (map_trimWhile_splitOn_append hmark hbefore hafter core).symm

end CallRefactor.Text
