import Questionnaire.Store.Record

/-!
# Stores

What is kept of each user between turns: collected values in scopes, a pointer, and a history.  A
scope reads its own values first and those of the other scopes behind them, the scope that was
written last before the others.

## Main Definitions

* `Scopes` - the values of a user in scopes, in the order of their last writes
* `Scopes.read`, `Scopes.write`, `Scopes.erase` - the operations on scopes
* `Fields.discard` - named values without some keys
* `Store` - the operations that a store offers

## Design Notes

A write moves its scope to the end, so the order of scopes is the order of their last writes.  An
absent value is not written, so it never hides a value of another scope.

Keys are removed one after the other.  An array or an object among them is noticed when it is looked
up, and among no values nothing is looked up.
-/

namespace Questionnaire

/-- Named values without some keys, which are removed one after the other up to the first that is
no key; once no values are left, the remaining keys are not looked at. -/
def Fields.discard : Fields → List Json → Fields × Except Fault Unit
  | fields, [] => (fields, .ok ())
  | [], _ :: _ => ([], .ok ())
  | e :: fields, k :: rest =>
    match k.asKey with
    | .error cause => (e :: fields, .error cause)
    | .ok key => discard (Assoc.remove key (e :: fields)) rest

/-- The values of a user in scopes, in the order of their last writes. -/
abbrev Scopes := Assoc Json Fields

namespace Scopes

/-- The values that a scope sees. -/
def read (scopes : Scopes) (scope : Json) : Fields :=
  let others := scopes.foldl
    (fun acc e => if e.1 == scope then acc else Assoc.overlay acc e.2) []
  Assoc.overlay others ((Assoc.valueAt? scope scopes).getD [])

/-- The entries of a patch that are written. -/
def written (patch : Fields) : Fields :=
  patch.filter fun e => match e.2 with
    | .null => false
    | _ => true

/-- The scopes after a patch of one of them. -/
def write (scopes : Scopes) (scope : Json) (patch : Fields) : Scopes :=
  Assoc.remove scope scopes
    ++ [(scope, Assoc.overlay ((Assoc.valueAt? scope scopes).getD []) (written patch))]

/-- The scopes without some keys of one of them, as far as the keys could be removed. -/
def erase (scopes : Scopes) (scope : Json) (keys : List Json) : Scopes × Except Fault Unit :=
  match Assoc.valueAt? scope scopes with
  | none => (scopes, .ok ())
  | some fields =>
    let (fields, outcome) := Fields.discard fields keys
    (Assoc.put scope fields scopes, outcome)

end Scopes

/-- The operations that a store offers.  An operation that fails leaves the store as it was, except
that a removal of keys may have been done in part. -/
class Store (σ : Type) where
  /-- The values that a scope of a user sees. -/
  getFields : σ → String → Json → Except Fault Fields
  /-- The store after a patch of a scope. -/
  setFields : σ → String → Json → Fields → Except Fault σ
  /-- The store without some keys of a scope, and whether all of them could be removed. -/
  deleteFields : σ → String → Json → List Json → σ × Except Fault Unit
  /-- All scopes of a user, as they are kept. -/
  scopesOf : σ → String → Except Fault (List (Json × Json))
  /-- The pointer of a user. -/
  getPointer : σ → String → Except Fault (Option Pointer)
  /-- The store with a pointer. -/
  savePointer : σ → String → Pointer → Except Fault σ
  /-- The store without a pointer. -/
  deletePointer : σ → String → Except Fault σ
  /-- The store with one more completion. -/
  appendCompletion : σ → String → CompletionRecord → Except Fault σ
  /-- The completions of a user in order. -/
  completions : σ → String → Except Fault (List CompletionRecord)

end Questionnaire
