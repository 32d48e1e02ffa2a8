import Questionnaire.Proofs.Store.Calls
import Questionnaire.Proofs.Store.Scopes

/-!
# What a log of calls says

The calls for a user, in the order in which they were made, tell what is to be read for this user:
under each key a scope sees what was last written there and not removed since, or else what that
scope among the others holds which was patched last.  This is said of the calls alone, whatever
keeps the values.

## Main Definitions

* `Call.Named` - a call whose scope and keys are texts
* `Log.holds?`, `Log.sees?` - the value of a scope under a key
* `Log.lastPointer?`, `Log.completions` - the pointer and the completions
* `Log.ToldBy` - all that is read for a user is what the calls for this user say
-/

namespace Questionnaire

namespace Call

/-- A call whose scope and keys are texts; a patch has each of its keys once. -/
inductive Named : Call → Prop where
  /-- A patch of a scope. -/
  | setFields (scope : String) {patch : Object} (distinct : (patch.map (·.1)).Nodup) :
      Named (.setFields (.str scope) (Fields.ofObject patch))
  /-- The removal of keys from a scope. -/
  | deleteFields (scope : String) (keys : List String) :
      Named (.deleteFields (.str scope) (keys.map .str))
  /-- A new pointer. -/
  | savePointer (p : Pointer) : Named (.savePointer p)
  /-- The removal of the pointer. -/
  | deletePointer : Named .deletePointer
  /-- One more completion. -/
  | appendCompletion (r : CompletionRecord) : Named (.appendCompletion r)

/-- The scope that a call patches. -/
def patchedScope? : Call → Option Json
  | .setFields scope _ => some scope
  | _ => none

/-- What a call says about the value of a scope under a key, if it says anything: that it is a value
from now on, or that there is none. -/
def saysOfValue? (scope key : Json) : Call → Option (Option Json)
  | .setFields target patch =>
    if target == scope then ((Assoc.valueAt? key patch).filter Scopes.isWritten).map some else none
  | .deleteFields target keys =>
    if target == scope && keys.any (· == key) then some none else none
  | _ => none

/-- What a call says about the pointer, if it says anything. -/
def saysOfPointer? : Call → Option (Option Pointer)
  | .savePointer p => some (some p)
  | .deletePointer => some none
  | _ => none

/-- The completion that a call appends. -/
def completion? : Call → Option CompletionRecord
  | .appendCompletion r => some r
  | _ => none

end Call

namespace Log

/-- The calls for a user. -/
def callsFor (user : String) (log : List (String × Call)) : List Call :=
  (log.filter fun e => e.1 == user).map (·.2)

/-- What the last of the calls that say something about a matter says of it. -/
def latest? {α : Type} (says? : Call → Option (Option α)) (calls : List Call) : Option α :=
  (calls.reverse.findSome? says?).join

/-- The value that a scope holds itself: the last one written and not removed since. -/
def holds? (calls : List Call) (scope key : Json) : Option Json :=
  latest? (Call.saysOfValue? scope key) calls

/-- The value that is held by that scope among the others which was patched last. -/
def behind? (calls : List Call) (scope key : Json) : Option Json :=
  calls.reverse.findSome? fun call => call.patchedScope?.bind fun other =>
    if other == scope then none else holds? calls other key

/-- The value that a scope sees. -/
def sees? (calls : List Call) (scope key : Json) : Option Json :=
  (holds? calls scope key).or (behind? calls scope key)

/-- The last pointer that was saved and not removed since. -/
def lastPointer? (calls : List Call) : Option Pointer := latest? Call.saysOfPointer? calls

/-- The completions in the order in which they were appended. -/
def completions (calls : List Call) : List CompletionRecord := calls.filterMap Call.completion?

/-- All that is read for a user is what calls say. -/
structure ToldBy {σ : Type} [Store σ] (calls : List Call) (s : σ) (user : String) : Prop where
  /-- Every scope is read, and under every key it has the value that it sees. -/
  fields : ∀ scope : String, ∃ fields, Store.getFields s user (.str scope) = .ok fields ∧
    ∀ key, Assoc.valueAt? key fields = sees? calls (.str scope) key
  /-- The pointer is the last one. -/
  pointer : Store.getPointer s user = .ok (lastPointer? calls)
  /-- The completions are in order. -/
  completions : Store.completions s user = .ok (Log.completions calls)

theorem latest?_concat {α : Type} (says? : Call → Option (Option α)) (calls : List Call)
    (call : Call) :
    latest? says? (calls ++ [call]) = (says? call).getD (latest? says? calls) := by
  rw [latest?, List.reverse_append, List.reverse_singleton, List.singleton_append,
    List.findSome?_cons]
  cases says? call <;> rfl

/-- The scope that was patched last stands before all others, whatever is asked of scopes. -/
theorem findSome?_patchedScope?_concat {α : Type} (f : Json → Option α) (calls : List Call)
    (call : Call) :
    ((calls ++ [call]).reverse.findSome? fun call => call.patchedScope?.bind f) =
      (call.patchedScope?.bind f).or
        (calls.reverse.findSome? fun call => call.patchedScope?.bind f) := by
  rw [List.reverse_append, List.findSome?_append, List.reverse_singleton, List.findSome?_singleton]

theorem completions_concat (calls : List Call) (call : Call) :
    completions (calls ++ [call]) = completions calls ++ call.completion?.toList := by
  rw [completions, List.filterMap_append]
  cases h : call.completion? <;> simp [completions, h]

theorem callsFor_concat (user : String) (log : List (String × Call)) (e : String × Call) :
    callsFor user (log ++ [e]) =
      if e.1 = user then callsFor user log ++ [e.2] else callsFor user log := by
  by_cases h : e.1 = user <;> simp [callsFor, List.filter_append, h]

end Log

end Questionnaire
