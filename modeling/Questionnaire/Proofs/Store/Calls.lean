import Questionnaire.Store.Files
import Questionnaire.Store.Memory

/-!
# Calls on stores

Whoever uses a store calls its operations one after the other, for one user or another.

## Main Definitions

* `Call` - an operation on what is kept of a user
* `Store.perform`, `Store.play` - the store after one call, and after several
* `Store.SeenAlike` - all that a user can read is the same
-/

namespace Questionnaire

/-- An operation on what is kept of a user. -/
inductive Call where
  /-- A patch of a scope. -/
  | setFields (scope : Json) (patch : Fields)
  /-- The removal of keys from a scope. -/
  | deleteFields (scope : Json) (keys : List Json)
  /-- A new pointer. -/
  | savePointer (p : Pointer)
  /-- The removal of the pointer. -/
  | deletePointer
  /-- One more completion. -/
  | appendCompletion (r : CompletionRecord)

namespace Store

variable {σ : Type} [Store σ]

/-- The store that an operation gives, or the one before if it fails. -/
def kept (s : σ) : Except Fault σ → σ × Except Fault Unit
  | .ok s' => (s', .ok ())
  | .error cause => (s, .error cause)

/-- The store after a call for a user, and whether the call succeeded. -/
def perform (s : σ) (user : String) : Call → σ × Except Fault Unit
  | .setFields scope patch => kept s (Store.setFields s user scope patch)
  | .deleteFields scope keys => Store.deleteFields s user scope keys
  | .savePointer p => kept s (Store.savePointer s user p)
  | .deletePointer => kept s (Store.deletePointer s user)
  | .appendCompletion r => kept s (Store.appendCompletion s user r)

/-- The store after calls for users, in order. -/
def play (s : σ) (calls : List (String × Call)) : σ :=
  calls.foldl (fun s e => (perform s e.1 e.2).1) s

/-- Whatever is read for a user is the same. -/
structure SeenAlike (user : String) (s s' : σ) : Prop where
  /-- Every scope sees the same values. -/
  fields : ∀ scope, Store.getFields s' user scope = Store.getFields s user scope
  /-- The pointer is the same. -/
  pointer : Store.getPointer s' user = Store.getPointer s user
  /-- The completions are the same. -/
  completions : Store.completions s' user = Store.completions s user

@[simp] theorem play_nil (s : σ) : play s [] = s := rfl

theorem play_append (s : σ) (calls more : List (String × Call)) :
    play s (calls ++ more) = play (play s calls) more :=
  List.foldl_append

theorem play_concat (s : σ) (calls : List (String × Call)) (e : String × Call) :
    play s (calls ++ [e]) = (perform (play s calls) e.1 e.2).1 := play_append s calls [e]

/-- What every call keeps, a sequence of calls keeps. -/
theorem play_induct {P : σ → Prop} (step : ∀ s user call, P s → P (perform s user call).1)
    {s : σ} (h : P s) (calls : List (String × Call)) : P (play s calls) := by
  induction calls generalizing s with
  | nil => exact h
  | cons e calls ih => exact ih (step s e.1 e.2 h)

/-- No call for `user` changes what is read for `other`, whatever was called on `empty` before. -/
def Isolates (empty : σ) (user other : String) : Prop :=
  ∀ (calls : List (String × Call)) (call : Call),
    SeenAlike other (play empty calls) (perform (play empty calls) user call).1

end Store

end Questionnaire
