import CallRefactor.Fix.File
import CallRefactor.Proofs.Edit.FixList
import CallRefactor.Proofs.Edit.NormalForm
import CallRefactor.Proofs.Fix.Call

/-!
# Verdicts on the calls of a file

Every call that a rule selects gets a verdict when it is visited: its fixes are accepted, or they
are dropped because one of them overlaps an edit accepted before. A verdict is never revisited, so a
dropped call leaves no trace but a conflict, and what becomes of a file can be read off the list of
verdicts.

Main statements: `Visit.foldl_add`, the visit gathers what the verdicts say; `fixFile_eq_ok_iff`, a
file in terms of its verdicts; and `fixFile_verdicts`, what the verdicts and the file are like.
-/

namespace CallRefactor

/-! ## Verdicts -/

/-- What becomes of a call that a rule selects. -/
structure Verdict where
  /-- The call. -/
  call : Call
  /-- What the rule does to the call. -/
  fix : CallFix
  /-- The span of an accepted edit that the fixes overlap. If there is one, they are dropped. -/
  collision? : Option Span

namespace Verdict

/-- The fixes of a call are accepted unless they collide with something. -/
def Accepted (v : Verdict) : Prop := v.collision? = none

instance : DecidablePred Accepted := fun v => inferInstanceAs (Decidable (v.collision? = none))

/-- Two verdicts collide when an edit of one call overlaps an edit of the other. -/
def Collides (u v : Verdict) : Prop :=
  ∃ a ∈ u.fix.edits, ∃ b ∈ v.fix.edits, a.span.Overlaps b.span

/-- What a call adds to the edits of the file: all of its edits or none. -/
def contribution (v : Verdict) : List Edit := if v.Accepted then v.fix.edits else []

/-- What a call adds to the conflicts of the file: its own and, if it is dropped, that it is. -/
def conflicts (v : Verdict) : List Conflict :=
  match v.collision? with
  | none => v.fix.conflicts
  | some s => v.fix.conflicts ++ [.unsupported v.call.span (.overlapsFix s)]

/-- The edits of accepted calls are all that is contributed. -/
theorem flatMap_contribution (verdicts : List Verdict) :
    verdicts.flatMap contribution
      = (verdicts.filter fun v => v.Accepted).flatMap fun v => v.fix.edits := by
  induction verdicts with
  | nil => rfl
  | cons v verdicts ih =>
    rw [List.flatMap_cons, List.filter_cons, ih]
    unfold contribution
    by_cases h : v.Accepted
    · rw [if_pos h, if_pos (decide_eq_true h), List.flatMap_cons]
    · rw [if_neg h, if_neg (by simpa using h), List.nil_append]

theorem mem_flatMap_contribution {verdicts : List Verdict} {e : Edit} :
    e ∈ verdicts.flatMap contribution ↔ ∃ u ∈ verdicts, u.Accepted ∧ e ∈ u.fix.edits := by
  rw [flatMap_contribution, List.mem_flatMap]
  simp only [List.mem_filter, decide_eq_true_eq, and_assoc]

end Verdict

namespace Rule

/-! ## One more call -/

/-- The verdict on a call that is visited next. -/
def Visit.judge (visit : Visit) (call : Call) (fix : CallFix) : Verdict where
  call := call
  fix := fix
  collision? := visit.fixes.clash? fix.edits

/-- A visit goes on with what the verdict says. -/
theorem Visit.add_eq (visit : Visit) {call : Call} {fix : CallFix} (h : fix.call = call.span) :
    visit.add fix =
      ⟨⟨visit.fixes.held ++ (visit.judge call fix).contribution⟩,
        visit.conflicts ++ (visit.judge call fix).conflicts, visit.matched + 1⟩ := by
  unfold Visit.add FixList.tryExtend Verdict.contribution Verdict.conflicts Verdict.Accepted
    Visit.judge
  cases visit.fixes.clash? fix.edits with
  | none => rfl
  | some s => simp [h]

/-! ## All calls -/

/-- The verdicts on calls that are visited one after the other. -/
def Visit.verdicts : Visit → List (Call × CallFix) → List Verdict
  | _, [] => []
  | visit, (call, fix) :: rest => visit.judge call fix :: (visit.add fix).verdicts rest

variable {rule : Rule} {text : String} {visit : Visit} {pairs : List (Call × CallFix)}
  {calls : List Call} {judged earlier later : List Verdict} {v : Verdict}

/-- No call is left out and none is judged twice. -/
theorem Visit.map_verdicts (visit : Visit) (pairs : List (Call × CallFix)) :
    (visit.verdicts pairs).map (fun v => (v.call, v.fix)) = pairs := by
  induction pairs generalizing visit with
  | nil => rfl
  | cons p pairs ih =>
    rw [Visit.verdicts, List.map_cons, ih]
    rfl

/-- Once all calls are visited, what has been gathered is what the verdicts say. -/
theorem Visit.foldl_add (visit : Visit) (h : ∀ p ∈ pairs, p.2.call = p.1.span) :
    (pairs.map Prod.snd).foldl Visit.add visit =
      ⟨⟨visit.fixes.held ++ (visit.verdicts pairs).flatMap Verdict.contribution⟩,
        visit.conflicts ++ (visit.verdicts pairs).flatMap Verdict.conflicts,
        visit.matched + (visit.verdicts pairs).length⟩ := by
  induction pairs generalizing visit with
  | nil => simp [Visit.verdicts]
  | cons p pairs ih =>
    obtain ⟨call, fix⟩ := p
    have hstep := visit.add_eq (h (call, fix) List.mem_cons_self)
    rw [List.map_cons, List.foldl_cons, ih _ fun q hq => h q (List.mem_cons_of_mem _ hq),
      Visit.verdicts, List.flatMap_cons, List.flatMap_cons, List.length_cons, hstep]
    simp only [List.append_assoc, Nat.add_assoc, Nat.add_comm 1]

/-- A visit offers the edits of each call to the list of fixes. -/
theorem Visit.fixes_add (visit : Visit) (fix : CallFix) :
    (visit.add fix).fixes = visit.fixes.offer fix.edits := by
  unfold Visit.add FixList.offer
  cases visit.fixes.tryExtend fix.edits <;> rfl

/-- The accepted calls are those whose edits the list of fixes takes. -/
theorem Visit.taken_eq (visit : Visit) (pairs : List (Call × CallFix)) :
    visit.fixes.taken (pairs.map fun p => p.2.edits)
      = ((visit.verdicts pairs).filter fun v => v.Accepted).map fun v => v.fix.edits := by
  induction pairs generalizing visit with
  | nil => rfl
  | cons p pairs ih =>
    obtain ⟨call, fix⟩ := p
    have hnext := ih (visit.add fix)
    rw [visit.fixes_add] at hnext
    rw [List.map_cons, Visit.verdicts, List.filter_cons]
    cases hextend : visit.fixes.tryExtend fix.edits with
    | ok more =>
      have haccepted : (visit.judge call fix).Accepted :=
        FixList.clash?_eq_none_iff.2 (FixList.tryExtend_eq_ok_iff.1 hextend).1
      rw [FixList.offer_of_ok hextend] at hnext
      rw [FixList.taken_cons_of_ok hextend, if_pos (decide_eq_true haccepted), List.map_cons, hnext]
      rfl
    | error s =>
      have hdropped : ¬ (visit.judge call fix).Accepted := by
        intro haccepted
        cases haccepted.symm.trans (FixList.tryExtend_eq_error_iff.1 hextend)
      rw [FixList.offer_of_error hextend] at hnext
      rw [FixList.taken_cons_of_error hextend, if_neg (by simpa using hdropped), hnext]

/-- A call is judged against the edits that the calls before it have contributed. -/
theorem Visit.collision?_eq (hcall : ∀ p ∈ pairs, p.2.call = p.1.span)
    (h : visit.verdicts pairs = earlier ++ v :: later) :
    v.collision? = (⟨visit.fixes.held ++ earlier.flatMap Verdict.contribution⟩ : FixList).clash?
      v.fix.edits := by
  induction earlier generalizing visit pairs with
  | nil =>
    obtain _ | ⟨⟨call, fix⟩, pairs⟩ := pairs
    · simp [Visit.verdicts] at h
    · obtain ⟨rfl, _⟩ := List.cons.inj h
      simp [Visit.judge]
  | cons u earlier ih =>
    obtain _ | ⟨⟨call, fix⟩, pairs⟩ := pairs
    · simp [Visit.verdicts] at h
    · -- the call in front adds its contribution before the others are judged
      obtain ⟨rfl, htail⟩ := List.cons.inj h
      have hstep := visit.add_eq (hcall (call, fix) List.mem_cons_self)
      rw [ih (fun q hq => hcall q (List.mem_cons_of_mem _ hq)) htail, hstep, List.flatMap_cons,
        List.append_assoc]

/-- Without the dropped calls the verdicts on the others are the same. -/
theorem Visit.verdicts_accepted {other : Visit} (hcall : ∀ p ∈ pairs, p.2.call = p.1.span)
    (hheld : other.fixes = visit.fixes) :
    other.verdicts (((visit.verdicts pairs).filter fun v => v.Accepted).map
      fun v => (v.call, v.fix)) = (visit.verdicts pairs).filter fun v => v.Accepted := by
  induction pairs generalizing visit other with
  | nil => rfl
  | cons p pairs ih =>
    obtain ⟨call, fix⟩ := p
    have hspan := hcall (call, fix) List.mem_cons_self
    have htail := fun q hq => hcall q (List.mem_cons_of_mem (call, fix) hq)
    have hsame : other.judge call fix = visit.judge call fix := by
      unfold Visit.judge
      rw [hheld]
    rw [Visit.verdicts, List.filter_cons]
    by_cases haccepted : (visit.judge call fix).Accepted
    · have hnext : (other.add fix).fixes = (visit.add fix).fixes := by
        rw [other.add_eq hspan, visit.add_eq hspan, hsame, hheld]
      rw [if_pos (decide_eq_true haccepted), List.map_cons]
      show other.judge call fix :: (other.add fix).verdicts _ = _
      rw [ih htail hnext, hsame]
    · -- a dropped call leaves the held edits as they are
      have hnext : other.fixes = (visit.add fix).fixes := by
        rw [visit.add_eq hspan, Verdict.contribution, if_neg haccepted, List.append_nil]
        exact hheld
      rw [if_neg (by simpa using haccepted)]
      exact ih htail hnext

/-! ## The calls of a file -/

theorem mapM_pair_eq_ok_iff {ε α β : Type} {f : α → Except ε β} {xs : List α}
    {ps : List (α × β)} :
    xs.mapM (fun x => (f x).map (x, ·)) = .ok ps ↔
      ps.map Prod.fst = xs ∧ ∀ p ∈ ps, f p.1 = .ok p.2 := by
  rw [mapM_eq_ok_iff]
  constructor
  · intro h
    induction h with
    | nil => exact ⟨rfl, nofun⟩
    | cons hp _ ih =>
      obtain ⟨y, hy, rfl⟩ := map_eq_ok_iff.1 hp
      exact ⟨by rw [List.map_cons, ih.1], List.forall_mem_cons.2 ⟨hy, ih.2⟩⟩
  · rintro ⟨rfl, hall⟩
    induction ps with
    | nil => exact .nil
    | cons p ps ih =>
      obtain ⟨hp, hps⟩ := List.forall_mem_cons.1 hall
      exact .cons (map_eq_ok_iff.2 ⟨p.2, hp, rfl⟩) (ih hps)

/-- The calls that a rule selects, each with what the rule does to it. -/
def selectedFixes (rule : Rule) (text : String) (calls : List Call) :
    Except Fault (List (Call × CallFix)) :=
  (calls.filter rule.signature.selects).mapM fun call => (rule.fix text call).map (call, ·)

/-- Calls without faults have a fix each. -/
theorem exists_fixes (h : ∀ c ∈ calls, ∃ fix, rule.fix text c = .ok fix) :
    ∃ pairs : List (Call × CallFix), pairs.map Prod.fst = calls ∧
      ∀ p ∈ pairs, rule.fix text p.1 = .ok p.2 := by
  induction calls with
  | nil => exact ⟨[], rfl, nofun⟩
  | cons call calls ih =>
    obtain ⟨⟨fix, hfix⟩, hrest⟩ := List.forall_mem_cons.1 h
    obtain ⟨pairs, hmap, hall⟩ := ih hrest
    exact ⟨(call, fix) :: pairs, by rw [List.map_cons, hmap],
      List.forall_mem_cons.2 ⟨hfix, hall⟩⟩

theorem fixCalls_eq (rule : Rule) (text : String) (calls : List Call) :
    rule.fixCalls text calls = (rule.selectedFixes text calls).map (List.map Prod.snd) := by
  unfold fixCalls selectedFixes
  induction calls with
  | nil => rfl
  | cons call calls ih =>
    rw [List.mapM_cons, List.filter_cons, fix?]
    by_cases hselects : rule.signature.selects call = true
    · rw [if_pos hselects, if_pos hselects, List.mapM_cons]
      cases rule.fix text call with
      | error fault => rfl
      | ok fix =>
        calc _ = ((calls.mapM (rule.fix? text)).map (List.filterMap id)).map (fix :: ·) := by
              cases calls.mapM (rule.fix? text) <;> rfl
          _ = _ := by
              rw [ih]
              cases (calls.filter rule.signature.selects).mapM fun call =>
                (rule.fix text call).map (call, ·) <;> rfl
    · rw [if_neg hselects, if_neg hselects, ← ih]
      cases calls.mapM (rule.fix? text) <;> rfl

/-- A fault at a selected call is the outcome for the file. -/
theorem fixFile_of_fault {fault : Fault} (h : rule.selectedFixes text calls = .error fault) :
    rule.fixFile text calls = .error (.fault fault) := by
  unfold fixFile
  rw [fixCalls_eq, h]
  rfl

theorem fix_call {call : Call} {fix : CallFix} (h : rule.fix text call = .ok fix) :
    fix.call = call.span := by
  obtain ⟨_, _, _, _, rfl⟩ := fix_eq_ok_iff.1 h
  rfl

/-- The verdicts on the calls of a file, in the order of the calls. -/
def verdicts (rule : Rule) (text : String) (calls : List Call) : Except Fault (List Verdict) :=
  (rule.selectedFixes text calls).map (Visit.verdicts {})

theorem verdicts_eq_ok_iff :
    rule.verdicts text calls = .ok judged ↔
      ∃ pairs, pairs.map Prod.fst = calls.filter rule.signature.selects ∧
        (∀ p ∈ pairs, rule.fix text p.1 = .ok p.2) ∧ Visit.verdicts {} pairs = judged := by
  unfold Rule.verdicts
  rw [map_eq_ok_iff]
  constructor
  · rintro ⟨pairs, hpairs, hjudged⟩
    obtain ⟨hmap, hfix⟩ := mapM_pair_eq_ok_iff.1 hpairs
    exact ⟨pairs, hmap, hfix, hjudged⟩
  · rintro ⟨pairs, hmap, hfix, hjudged⟩
    exact ⟨pairs, mapM_pair_eq_ok_iff.2 ⟨hmap, hfix⟩, hjudged⟩

theorem verdicts_eq_error_iff {fault : Fault} :
    rule.verdicts text calls = .error fault ↔ rule.selectedFixes text calls = .error fault :=
  map_eq_error_iff

/-- Every selected call has a verdict, and nothing else has. -/
theorem map_call_verdicts (h : rule.verdicts text calls = .ok judged) :
    judged.map Verdict.call = calls.filter rule.signature.selects := by
  obtain ⟨pairs, hmap, _, rfl⟩ := verdicts_eq_ok_iff.1 h
  calc _ = ((Visit.verdicts {} pairs).map fun v => (v.call, v.fix)).map Prod.fst := by
        rw [List.map_map]
        rfl
    _ = _ := by rw [Visit.map_verdicts, hmap]

/-- The call of a verdict is one of the file that the rule selects. -/
theorem call_mem_of_mem_verdicts (h : rule.verdicts text calls = .ok judged)
    (hv : v ∈ judged) : v.call ∈ calls ∧ rule.signature.selects v.call = true := by
  have hmem := List.mem_map_of_mem (f := Verdict.call) hv
  rw [map_call_verdicts h] at hmem
  exact List.mem_filter.1 hmem

theorem fix_of_mem_verdicts (h : rule.verdicts text calls = .ok judged) (hv : v ∈ judged) :
    rule.fix text v.call = .ok v.fix := by
  obtain ⟨pairs, _, hfix, rfl⟩ := verdicts_eq_ok_iff.1 h
  refine hfix (v.call, v.fix) ?_
  rw [← Visit.map_verdicts {} pairs]
  exact List.mem_map_of_mem hv

theorem fix_eq_of_mem_verdicts {call : Call} {fix : CallFix}
    (h : rule.verdicts text calls = .ok judged) (hv : v ∈ judged) (hcall : v.call = call)
    (hfix : rule.fix text call = .ok fix) : v.fix = fix := by
  subst hcall
  exact Except.ok.inj ((fix_of_mem_verdicts h hv).symm.trans hfix)

/-- A call is dropped exactly when it collides with an accepted one before it. -/
theorem not_accepted_iff (h : rule.verdicts text calls = .ok judged)
    (hsplit : judged = earlier ++ v :: later) :
    ¬ v.Accepted ↔ ∃ u ∈ earlier, u.Accepted ∧ u.Collides v := by
  obtain ⟨pairs, _, hfix, rfl⟩ := verdicts_eq_ok_iff.1 h
  have hcollision := Visit.collision?_eq (fun p hp => fix_call (hfix p hp)) hsplit
  unfold Verdict.Accepted at *
  rw [hcollision]
  constructor
  · intro hsome
    obtain ⟨s, hs⟩ := Option.ne_none_iff_exists'.1 hsome
    obtain ⟨a, ha, _, b, hb, hab⟩ := FixList.clash?_eq_some hs
    obtain ⟨u, hu, haccepted, hau⟩ := Verdict.mem_flatMap_contribution.1 ha
    exact ⟨u, hu, haccepted, a, hau, b, hb, hab⟩
  · rintro ⟨u, hu, haccepted, a, ha, b, hb, hab⟩ hnone
    exact FixList.clash?_eq_none_iff.1 hnone a
      (Verdict.mem_flatMap_contribution.2 ⟨u, hu, haccepted, ha⟩) b hb hab

/-- Of two accepted calls no edits overlap. -/
theorem pairwise_not_collides (h : rule.verdicts text calls = .ok judged) :
    judged.Pairwise fun u v => u.Accepted → v.Accepted → ¬ u.Collides v := by
  refine List.pairwise_iff_getElem.2 fun i j hi hj hij hu hv hcollides => ?_
  have hsplit : judged.take j ++ judged[j] :: judged.drop (j + 1) = judged := by
    rw [List.getElem_cons_drop, List.take_append_drop]
  have hearlier : judged[i] ∈ judged.take j :=
    List.mem_take_iff_getElem.2 ⟨i, by omega, rfl⟩
  exact (not_accepted_iff h hsplit.symm).2 ⟨_, hearlier, hu, hcollides⟩ hv

/-- Contributed edits overlap only if they come from one call. -/
theorem pairwise_contributions_iff (h : rule.verdicts text calls = .ok judged) :
    ((judged.flatMap Verdict.contribution).Pairwise fun a b => ¬ a.span.Overlaps b.span) ↔
      ∀ v ∈ judged, v.Accepted → v.fix.edits.Pairwise fun a b => ¬ a.span.Overlaps b.span := by
  obtain ⟨pairs, _, _, rfl⟩ := verdicts_eq_ok_iff.1 h
  have htaken := Visit.taken_eq {} pairs
  have hheld : (FixList.offerAll ∅ (pairs.map fun p => p.2.edits)).held
      = (Visit.verdicts {} pairs).flatMap Verdict.contribution := by
    rw [FixList.held_offerAll, htaken, Verdict.flatMap_contribution]
    rfl
  rw [← hheld, FixList.pairwise_held_offerAll_iff, htaken]
  simp only [List.forall_mem_map, List.mem_filter, decide_eq_true_eq, and_imp]
  exact and_iff_right .nil

/-- What has been gathered from a file is what the verdicts on its calls say. -/
theorem fixFile_eq (h : rule.verdicts text calls = .ok judged) :
    rule.fixFile text calls =
      ((Edit.normalize text (judged.flatMap Verdict.contribution)).mapError
        (FileError.edit ∘ Edit.Refusal.error)).map fun edits =>
          ⟨edits, judged.flatMap Verdict.conflicts, judged.length⟩ := by
  obtain ⟨pairs, hmap, hfix, rfl⟩ := verdicts_eq_ok_iff.1 h
  have hselected : rule.selectedFixes text calls = .ok pairs := mapM_pair_eq_ok_iff.2 ⟨hmap, hfix⟩
  have hvisit := Visit.foldl_add {} fun p hp => fix_call (hfix p hp)
  unfold fixFile visitAll
  rw [fixCalls_eq, hselected]
  show Except.bind (Except.mapError FileError.edit
    (((pairs.map Prod.snd).foldl Visit.add {}).fixes.finish text)) _ = _
  rw [hvisit]
  simp only [Nat.zero_add]
  show Except.bind (Except.mapError FileError.edit (Except.mapError Edit.Refusal.error
    (Edit.normalize text ((Visit.verdicts {} pairs).flatMap Verdict.contribution)))) _ = _
  cases Edit.normalize text ((Visit.verdicts {} pairs).flatMap Verdict.contribution) <;> rfl

/-- A file is fixed exactly when its calls have verdicts and the accepted edits fit the text. -/
theorem fixFile_eq_ok_iff {file : FileFix} :
    rule.fixFile text calls = .ok file ↔
      ∃ judged, rule.verdicts text calls = .ok judged ∧
        Edit.normalize text (judged.flatMap Verdict.contribution) = .ok file.edits ∧
        file.conflicts = judged.flatMap Verdict.conflicts ∧ file.matched = judged.length := by
  constructor
  · intro h
    cases hjudged : rule.verdicts text calls with
    | error fault =>
      rw [fixFile_of_fault (verdicts_eq_error_iff.1 hjudged)] at h
      cases h
    | ok judged =>
      rw [fixFile_eq hjudged] at h
      cases hnormal : Edit.normalize text (judged.flatMap Verdict.contribution) with
      | error refusal => rw [hnormal] at h; cases h
      | ok edits =>
        rw [hnormal] at h
        obtain rfl := Except.ok.inj h
        exact ⟨judged, rfl, hnormal, rfl, rfl⟩
  · rintro ⟨judged, hjudged, hnormal, hconflicts, hmatched⟩
    rw [fixFile_eq hjudged, hnormal, ← hconflicts, ← hmatched]
    rfl

/-- The accepted calls of a file, without the others, get the same verdicts. -/
theorem verdicts_accepted (h : rule.verdicts text calls = .ok judged) :
    rule.verdicts text ((judged.filter fun v => v.Accepted).map Verdict.call)
      = .ok (judged.filter fun v => v.Accepted) := by
  have hfixes := fun v hv => fix_of_mem_verdicts (v := v) h hv
  have hselects : ∀ call ∈ (judged.filter fun v => v.Accepted).map Verdict.call,
      rule.signature.selects call = true := by
    intro call hcall
    obtain ⟨v, hv, rfl⟩ := List.mem_map.1 hcall
    exact (call_mem_of_mem_verdicts h (List.mem_filter.1 hv).1).2
  obtain ⟨pairs, _, hfix, rfl⟩ := verdicts_eq_ok_iff.1 h
  refine verdicts_eq_ok_iff.2 ⟨_, ?_, ?_,
    Visit.verdicts_accepted (fun p hp => fix_call (hfix p hp)) rfl⟩
  · rw [List.filter_eq_self.2 hselects, List.map_map]
    rfl
  · intro p hp
    obtain ⟨v, hv, rfl⟩ := List.mem_map.1 hp
    exact hfixes v (List.mem_filter.1 hv).1

/-! ## The file -/

/-- **The verdicts on a file.** A selected call is dropped exactly when it collides with an accepted
one before it. The file gets all edits of the accepted calls and none of the others, joined where
they touch. Call by call the conflicts are its own and, if it is dropped, one more that says so.
Dropped calls leave no other trace: without them and the calls that are not selected the edits are
the same. -/
theorem fixFile_verdicts {file : FileFix} (h : rule.fixFile text calls = .ok file) :
    ∃ judged, rule.verdicts text calls = .ok judged ∧
      judged.map Verdict.call = calls.filter rule.signature.selects ∧
      (∀ v ∈ judged, rule.fix text v.call = .ok v.fix) ∧
      (∀ earlier v later, judged = earlier ++ v :: later →
        (¬ v.Accepted ↔ ∃ u ∈ earlier, u.Accepted ∧ u.Collides v)) ∧
      Edit.normalize text ((judged.filter fun v => v.Accepted).flatMap fun v => v.fix.edits)
        = .ok file.edits ∧
      (∃ out, Edit.applyAll text file.edits = .ok out ∧
        Edit.applyAll text ((judged.filter fun v => v.Accepted).flatMap fun v => v.fix.edits)
          = .ok out) ∧
      Edit.Separated file.edits ∧
      file.matched = (judged.filter fun v => v.Accepted).length
        + (judged.filter fun v => ¬ v.Accepted).length ∧
      file.conflicts = judged.flatMap Verdict.conflicts ∧
      ∃ alone, rule.fixFile text ((judged.filter fun v => v.Accepted).map Verdict.call)
        = .ok alone ∧ alone.edits = file.edits := by
  obtain ⟨judged, hjudged, hnormal, hconflicts, hmatched⟩ := fixFile_eq_ok_iff.1 h
  rw [Verdict.flatMap_contribution] at hnormal
  refine ⟨judged, hjudged, map_call_verdicts hjudged, fun v hv => fix_of_mem_verdicts hjudged hv,
    fun earlier v later hsplit => not_accepted_iff hjudged hsplit, hnormal, ?_,
    Edit.normalize_separated hnormal, ?_, hconflicts, ?_⟩
  · obtain ⟨out, hout⟩ := Edit.applyAll_isOk hnormal
    exact ⟨out, by rw [Edit.applyAll_normal hnormal, hout], hout⟩
  · rw [hmatched, List.length_eq_countP_add_countP fun v => v.Accepted,
      List.countP_eq_length_filter, List.countP_eq_length_filter]
    simp only [decide_eq_true_eq]
  · refine ⟨⟨file.edits, _, _⟩, fixFile_eq_ok_iff.2
      ⟨_, verdicts_accepted hjudged, ?_, rfl, rfl⟩, rfl⟩
    rw [Verdict.flatMap_contribution, List.filter_filter]
    simpa using hnormal

/-- Calls of methods of `T` are named `k`, and their first argument moves behind the others. -/
def rotateAsK : Rule := { rotateToU with target? := none, rename? := some "k" }

theorem fixFile_verdicts_rotateAsK :
    ∃ file judged, rotateAsK.fixFile "f(g(1), h)" [outerCall, innerCall] = .ok file ∧
      rotateAsK.verdicts "f(g(1), h)" [outerCall, innerCall] = .ok judged ∧
      judged.flatMap Verdict.conflicts
        = [.unsupported innerCall.span (.overlapsFix ⟨2, 6, by decide⟩)] := by
  -- the new name of the inner call stands inside the argument that the outer call writes anew
  have hfile : rotateAsK.fixFile "f(g(1), h)" [outerCall, innerCall] = .ok
      ⟨[⟨⟨0, 1, by decide⟩, "k"⟩, ⟨⟨2, 6, by decide⟩, "h"⟩, ⟨⟨8, 9, by decide⟩, "g(1)"⟩],
        [.unsupported innerCall.span (.overlapsFix ⟨2, 6, by decide⟩)], 2⟩ := by rfl
  obtain ⟨judged, hjudged, _, _, _, _, _, _, _, hconflicts, _⟩ := fixFile_verdicts hfile
  exact ⟨_, judged, hfile, hjudged, hconflicts.symm⟩

end Rule

end CallRefactor
