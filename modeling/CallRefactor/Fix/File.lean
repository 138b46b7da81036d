import CallRefactor.Edit.FixList
import CallRefactor.Fix.Call

/-!
# Fixes of a file

The calls of a file are visited in the order given. The fixes of a call are accepted together, or
dropped together when one of them overlaps a fix of an earlier call, which is reported as a
conflict of that call. A nested call can so lose to the one around it, or the other way round.
-/

namespace CallRefactor

/-- What a rule does to a file. -/
structure FileFix where
  /-- The edits in normal form. -/
  edits : List Edit
  /-- The conflicts, call by call. -/
  conflicts : List Conflict
  /-- The number of calls that the rule selects. -/
  matched : Nat
deriving DecidableEq

/-- Why the calls of a file could not be fixed. -/
inductive FileError where
  /-- A promise about the calls is broken. -/
  | fault (fault : Fault)
  /-- The fixes do not fit the text. -/
  | edit (error : EditError)
deriving DecidableEq

namespace Rule

/-- What has been gathered from the calls visited so far. -/
structure Visit where
  /-- The accepted fixes. -/
  fixes : FixList := ∅
  /-- The conflicts. -/
  conflicts : List Conflict := []
  /-- The number of calls that the rule selects. -/
  matched : Nat := 0
deriving DecidableEq

/-- Takes in what the rule does to one more call. -/
def Visit.add (visit : Visit) (fix : CallFix) : Visit :=
  match visit.fixes.tryExtend fix.edits with
  | .ok fixes => ⟨fixes, visit.conflicts ++ fix.conflicts, visit.matched + 1⟩
  | .error span =>
    ⟨visit.fixes,
      visit.conflicts ++ fix.conflicts ++ [.unsupported fix.call (.overlapsFix span)],
      visit.matched + 1⟩

/-- What the rule does to each of the calls that it selects. -/
def fixCalls (rule : Rule) (text : String) (calls : List Call) : Except Fault (List CallFix) :=
  (calls.mapM (rule.fix? text)).map (List.filterMap id)

/-- What has been gathered once all calls are visited. -/
def visitAll (fixes : List CallFix) : Visit := fixes.foldl Visit.add {}

/-- What a rule does to the calls of a file. -/
def fixFile (rule : Rule) (text : String) (calls : List Call) : Except FileError FileFix := do
  let fixes ← (rule.fixCalls text calls).mapError .fault
  let visit := visitAll fixes
  let edits ← (visit.fixes.finish text).mapError .edit
  return ⟨edits, visit.conflicts, visit.matched⟩

end Rule

end CallRefactor
