import Questionnaire.Json.Literal
import Questionnaire.Store.Basic

/-!
# The store in memory

## Main Definitions

* `MemoryStore` - scopes, pointers and histories under the names of users
-/

namespace Questionnaire

/-- Scopes, pointers and histories under the names of users. -/
structure MemoryStore where
  /-- The scopes of users. -/
  fields : Assoc String Scopes := []
  /-- The pointers of users. -/
  pointers : Assoc String Pointer := []
  /-- The completions of users. -/
  history : Assoc String (List CompletionRecord) := []

namespace MemoryStore

/-- The scopes of a user. -/
def scopes (m : MemoryStore) (user : String) : Scopes := (Assoc.valueAt? user m.fields).getD []

/-- The completions of a user. -/
def records (m : MemoryStore) (user : String) : List CompletionRecord :=
  (Assoc.valueAt? user m.history).getD []

/-- The values that a scope of a user sees. -/
def getFields (m : MemoryStore) (user : String) (scope : Json) : Except Fault Fields := do
  let key ← scope.asKey
  pure ((m.scopes user).read key)

/-- The store after a patch of a scope. -/
def setFields (m : MemoryStore) (user : String) (scope : Json) (patch : Fields) :
    Except Fault MemoryStore := do
  let key ← scope.asKey
  pure { m with fields := Assoc.put user ((m.scopes user).write key patch) m.fields }

/-- The store without some keys of a scope, as far as they could be removed. -/
def deleteFields (m : MemoryStore) (user : String) (scope : Json) (keys : List Json) :
    MemoryStore × Except Fault Unit :=
  match scope.asKey with
  | .error cause => (m, .error cause)
  | .ok key =>
    match Assoc.valueAt? user m.fields with
    | none => (m, .ok ())
    | some scopes =>
      let (scopes, outcome) := Scopes.erase scopes key keys
      ({ m with fields := Assoc.put user scopes m.fields }, outcome)

/-- The store with a pointer. -/
def savePointer (m : MemoryStore) (user : String) (p : Pointer) : MemoryStore :=
  { m with pointers := Assoc.put user p m.pointers }

/-- The store without a pointer. -/
def deletePointer (m : MemoryStore) (user : String) : MemoryStore :=
  { m with pointers := Assoc.remove user m.pointers }

/-- The store with one more completion. -/
def appendCompletion (m : MemoryStore) (user : String) (r : CompletionRecord) : MemoryStore :=
  { m with history := Assoc.put user (m.records user ++ [r]) m.history }

instance : Store MemoryStore where
  getFields := getFields
  setFields := setFields
  deleteFields := deleteFields
  scopesOf m user := .ok ((m.scopes user).map fun e => (e.1, Fields.shown e.2))
  getPointer m user := .ok (Assoc.valueAt? user m.pointers)
  savePointer m user p := .ok (m.savePointer user p)
  deletePointer m user := .ok (m.deletePointer user)
  appendCompletion m user r := .ok (m.appendCompletion user r)
  completions m user := .ok (m.records user)

end MemoryStore

end Questionnaire
