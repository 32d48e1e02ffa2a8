import Questionnaire.Json.Writer
import Questionnaire.Store.Basic
import Questionnaire.Store.Place

/-!
# The store in files

Every user has a file with scopes, a file with the pointer, and a file with one line for each
completion.  Files may be changed from outside, so everything that is read may be malformed, and a
user whose name is too long for the name of a file has no files at all.

## Main Definitions

* `FileStore` - the texts of files under their paths
* `FileStore.safeName` - the name of a user in paths

## Design Notes

Characters that are not safe in paths are replaced, so different users may share files.  Data is
written into a draft beside its file, which then takes its place; the name of the draft has to fit
as well.
-/

namespace Questionnaire

/-- The texts of files under their paths. -/
structure FileStore where
  /-- The files. -/
  files : Assoc String String := []

namespace FileStore

/-- A character that stands for itself in paths. -/
def isSafe (c : Char) : Bool :=
  c.isAlphanum || c == '_' || c == '.' || c == '-'

/-- The name of a user in paths. -/
def safeName (user : String) : String :=
  String.ofList (user.toList.map fun c => if isSafe c then c else '_')

/-- The name of the file of a user with data. -/
def dataName (user : String) : String := "USER-" ++ safeName user ++ ".json"

/-- The name of the file of a user with lines. -/
def linesName (user : String) : String := "USER-" ++ safeName user ++ ".jsonl"

/-- The name of the draft of a file. -/
def draftName (name : String) : String := name ++ ".tmp"

/-- The path of the scopes of a user. -/
def fieldsPath (user : String) : String := Place.inFolder "fields" (dataName user)

/-- The path of the pointer of a user. -/
def pointerPath (user : String) : String := Place.inFolder "pointers" (dataName user)

/-- The path of the completions of a user. -/
def historyPath (user : String) : String := Place.inFolder "history" (linesName user)

/-- The text of a file. -/
def text? (s : FileStore) (path : String) : Option String := Assoc.valueAt? path s.files

/-- The store with a file. -/
def write (s : FileStore) (path text : String) : FileStore :=
  { s with files := Assoc.put path text s.files }

/-- The store without a file. -/
def remove (s : FileStore) (path : String) : FileStore :=
  { s with files := Assoc.remove path s.files }

/-- The text of the file with data of a user in a folder, if there is such a file. -/
def dataText? (s : FileStore) (folder user : String) : Except Fault (Option String) := do
  Place.checkLength (dataName user)
  pure (s.text? (Place.inFolder folder (dataName user)))

/-- The store with data in the file of a user in a folder. -/
def writeData (s : FileStore) (folder user : String) (data : Json) : Except Fault FileStore := do
  let draft := draftName (dataName user)
  Place.checkLength draft
  pure ((s.remove (Place.inFolder folder draft)).write (Place.inFolder folder (dataName user))
    data.writeIndented)

/-- What the file of a user holds in the place of scopes. -/
def loadScopes (s : FileStore) (user : String) : Except Fault Json := do
  match ← s.dataText? "fields" user with
  | none => pure (.obj [])
  | some text => do
    let data ← Json.require text
    let scopes ← data.part "scopes"
    pure (scopes.getD (.obj []))

/-- The scopes of a user by name. -/
def namedScopes (v : Json) (operation : String) : Except Fault (Assoc Json Json) :=
  match v with
  | .obj ms => .ok (Fields.ofObject ms)
  | w => .error (.noPart w.kindName operation)

/-- The store with the scopes of a user. -/
def saveScopes (s : FileStore) (user : String) (scopes : Assoc Json Json) :
    Except Fault FileStore :=
  s.writeData "fields" user
    (.obj [("user_id", .str user), ("scopes", .obj (Fields.toObject scopes))])

/-- The values of some scopes, later ones replacing earlier ones. -/
def overlayScopes : Fields → List Json → Except Fault Fields
  | acc, [] => .ok acc
  | acc, v :: rest => do
    let acc ← Fields.update acc v
    overlayScopes acc rest

/-- The values that a scope of a user sees. -/
def getFields (s : FileStore) (user : String) (scope : Json) : Except Fault Fields := do
  let loaded ← s.loadScopes user
  let scopes ← namedScopes loaded "items"
  let others := (scopes.filter fun e => !(e.1 == scope)).map (·.2)
  let base ← overlayScopes [] others
  let key ← scope.asKey
  base.update ((Assoc.valueAt? key scopes).getD (.obj []))

/-- The values of a scope after a patch.  Only named values can be patched. -/
def patched (v : Json) (patch : Fields) : Except Fault Json :=
  match v with
  | .obj ms =>
    .ok (.obj (Fields.toObject (Assoc.overlay (Fields.ofObject ms) (Scopes.written patch))))
  | w => if (Scopes.written patch).isEmpty then .ok w else .error (.notDefined "writing" w.kindName)

/-- The scopes that a patch is applied to. -/
def scopesToPatch (v : Json) : Except Fault (Assoc Json Json) :=
  match v with
  | .obj ms => .ok (Fields.ofObject ms)
  | .arr _ => .error (.notDefined "removal" "list")
  | w => .error (.noPart w.kindName "pop")

/-- The store after a patch of a scope. -/
def setFields (s : FileStore) (user : String) (scope : Json) (patch : Fields) :
    Except Fault FileStore := do
  let loaded ← s.loadScopes user
  let scopes ← scopesToPatch loaded
  let key ← scope.asKey
  let fields ← patched ((Assoc.valueAt? key scopes).getD (.obj [])) patch
  s.saveScopes user (Assoc.remove key scopes ++ [(key, fields)])

/-- The values of a scope without some keys.  Keys can be removed from named values only. -/
def withoutKeys (v : Json) (keys : List Json) : Except Fault Json :=
  match v with
  | .obj ms =>
    let (fields, outcome) := Fields.discard (Fields.ofObject ms) keys
    outcome.map fun _ => .obj (Fields.toObject fields)
  | .arr xs => if keys.isEmpty then .ok (.arr xs) else .error (.notDefined "removal" "list")
  | w => if keys.isEmpty then .ok w else .error (.noPart w.kindName "pop")

/-- The store without some keys of a scope.  The file is written unless a key fails, whether the
scope exists or not. -/
def withoutFields (s : FileStore) (user : String) (scope : Json) (keys : List Json) :
    Except Fault FileStore := do
  let loaded ← s.loadScopes user
  let scopes ← namedScopes loaded "get"
  let key ← scope.asKey
  match Assoc.valueAt? key scopes with
  | none => s.saveScopes user scopes
  | some v => do
    let fields ← withoutKeys v keys
    s.saveScopes user (Assoc.put key fields scopes)

/-- The store without some keys of a scope, or as it was if one of them is no key. -/
def deleteFields (s : FileStore) (user : String) (scope : Json) (keys : List Json) :
    FileStore × Except Fault Unit :=
  match s.withoutFields user scope keys with
  | .ok s => (s, .ok ())
  | .error cause => (s, .error cause)

/-- The scopes of a user, as they are kept. -/
def scopesOf (s : FileStore) (user : String) : Except Fault (List (Json × Json)) := do
  let loaded ← s.loadScopes user
  namedScopes loaded "items"

/-- The pointer of a user. -/
def getPointer (s : FileStore) (user : String) : Except Fault (Option Pointer) := do
  match ← s.dataText? "pointers" user with
  | none => pure none
  | some text => do
    let data ← Json.require text
    let p ← Pointer.ofJson data
    pure (some p)

/-- The store with a pointer. -/
def savePointer (s : FileStore) (user : String) (p : Pointer) : Except Fault FileStore :=
  s.writeData "pointers" user p.toJson

/-- The store without a pointer. -/
def deletePointer (s : FileStore) (user : String) : Except Fault FileStore := do
  Place.checkLength (dataName user)
  pure (s.remove (pointerPath user))

/-- The store with one more completion, on a line of its own. -/
def appendCompletion (s : FileStore) (user : String) (r : CompletionRecord) :
    Except Fault FileStore := do
  Place.checkLength (linesName user)
  pure (s.write (historyPath user)
    ((s.text? (historyPath user)).getD "" ++ r.toJson.write ++ "\n"))

/-- The lines of a file of completions. -/
def recordLines (text : String) : List String :=
  Text.splitTrimmed (fun c => c == '\n' || c == '\r') text

/-- The completions of a user in order, blank lines left out. -/
def completions (s : FileStore) (user : String) : Except Fault (List CompletionRecord) := do
  Place.checkLength (linesName user)
  match s.text? (historyPath user) with
  | none => pure []
  | some text =>
    (recordLines text).mapM fun line => do
      let data ← Json.require line
      CompletionRecord.ofJson data

instance : Store FileStore where
  getFields := getFields
  setFields := setFields
  deleteFields := deleteFields
  scopesOf := scopesOf
  getPointer := getPointer
  savePointer := savePointer
  deletePointer := deletePointer
  appendCompletion := appendCompletion
  completions := completions

end FileStore

end Questionnaire
