import Questionnaire.Store.Files
import Questionnaire.Store.Memory

/-!
# Raw access to stores

What a store offers to those who look after it: patches and keys that are given as data of any kind,
and the files as they are.

## Main Definitions

* `RawStore` - a store with raw access
* `RawStore.patch` - write the members of a value into a scope
* `RawStore.discard` - remove the keys that a value lists from a scope

## Design Notes

A scope is taken out of its store before it is patched, and a patch without members is noticed only
then.  A store in memory has lost the scope by that time; a store in files has not been saved yet.
-/

namespace Questionnaire

/-- A store with raw access. -/
class RawStore (σ : Type) extends Store σ where
  /-- The store after a scope was taken out to be patched and was not put back. -/
  takeOut : σ → String → Json → Except Fault σ
  /-- The store with a file at a path. -/
  putFile : σ → String → String → Except Fault σ
  /-- The files under their paths. -/
  allFiles : σ → List (String × String)

namespace RawStore

variable {σ : Type} [RawStore σ]

/-- The store after a patch of a scope by the members of a value, and whether it had any. -/
def patch (s : σ) (user : String) (scope value : Json) : σ × Except Fault Unit :=
  match value with
  | .obj ms =>
    match Store.setFields s user scope (Fields.ofObject ms) with
    | .ok s => (s, .ok ())
    | .error cause => (s, .error cause)
  | v =>
    match takeOut s user scope with
    | .ok s => (s, .error (.noPart v.kindName "items"))
    | .error cause => (s, .error cause)

/-- The store without the keys of a scope that a value lists, and whether all of them could be
removed. -/
def discard (s : σ) (user : String) (scope value : Json) : σ × Except Fault Unit :=
  match value.itemsOver with
  | .ok keys => Store.deleteFields s user scope keys
  | .error cause => (s, (Store.deleteFields s user scope []).2.bind fun _ => .error cause)

end RawStore

namespace MemoryStore

/-- The store after a scope was taken out.  Among no scopes nothing is looked up. -/
def takeOut (m : MemoryStore) (user : String) (scope : Json) : Except Fault MemoryStore :=
  if (m.scopes user).isEmpty then .ok m
  else do
    let key ← scope.asKey
    pure { m with fields := Assoc.put user (Assoc.remove key (m.scopes user)) m.fields }

instance : RawStore MemoryStore where
  takeOut := takeOut
  putFile m _ _ := .ok m
  allFiles _ := []

end MemoryStore

namespace FileStore

/-- The store after a scope was taken out, which changes no file. -/
def takeOut (s : FileStore) (user : String) (scope : Json) : Except Fault FileStore := do
  let loaded ← s.loadScopes user
  let scopes ← scopesToPatch loaded
  if scopes.isEmpty then pure s
  else do
    let _ ← scope.asKey
    pure s

/-- The store with a file at a path.  Every line end of the text becomes a line feed. -/
def putFile (s : FileStore) (path text : String) : Except Fault FileStore := do
  match ← Place.ofPath (fun p => (s.text? p).isSome) path with
  | .file p => pure (s.write p (Text.withLineFeeds text))
  | .stray => pure s
  | _ => .error (.file .isDirectory path)

instance : RawStore FileStore where
  takeOut := takeOut
  putFile := putFile
  allFiles s := s.files

end FileStore

end Questionnaire
