import Questionnaire.Surface.Url
import Questionnaire.Turn.Flow

/-!
# The web surface

A request names a user and an answer, and the response holds the outcome of the turn.  Failures are
not shown to clients.

## Main Definitions

* `Web.Request`, `Web.Response` - requests and responses
* `Web.Target` - what a path leads to
* `Web.respond` - the response to a request

## Design Notes

Besides the three actions there is a folder of assets, which is empty.  A path that leads somewhere
only when its doubled slashes are written once is answered by pointing to the better path.
-/

namespace Questionnaire.Web

/-- A request. -/
structure Request where
  /-- The method. -/
  method : String
  /-- The address. -/
  path : String
  /-- The body. -/
  body : String := ""
  /-- The type of the body. -/
  contentType : Option String := none

/-- A response; it may hold no data. -/
structure Response where
  /-- The status code. -/
  status : Nat
  /-- The data. -/
  data : Option Json

/-- What clients see of a failure. -/
def genericError : String := "Something went wrong, please try again"

/-- What clients see of a request without a user. -/
def userMissing : String := "user_id is required"

/-- A response that tells of a failure. -/
def failure (status : Nat) (text : String) : Response :=
  ⟨status, some (.obj [("success", .bool false), ("error", .str text)])⟩

/-- The media type of a content type, without its parameters. -/
def mediaType (contentType : String) : String :=
  Unicode.lower (Text.trim (String.ofList (contentType.toList.takeWhile (· != ';'))))

/-- A media type of data. -/
def isDataType (mediaType : String) : Bool :=
  mediaType == "application/json"
    || ("application/".isPrefixOf mediaType && "+json".toList.isSuffixOf mediaType.toList)

/-- A text without the mark that may stand at its start. -/
def withoutMark (s : String) : String :=
  match s.toList with
  | '\uFEFF' :: rest => String.ofList rest
  | _ => s

/-- The data of a request; data that is missing, unreadable or not filled is an empty object. -/
def payload (r : Request) : Json :=
  let data :=
    match r.contentType with
    | some t => if isDataType (mediaType t) then Json.read? (withoutMark r.body) else none
    | none => none
  (data.getD .null).filledOr (.obj [])

/-- The user that data names, empty if it names none. -/
def userOf (data : Json) : Except Fault String := do
  let v ← data.partOrNull "user_id"
  pure (Text.trim (v.filledOr (.str "")).display)

/-- The answer that data holds. -/
def answerOf (data : Object) : String :=
  match (Assoc.valueAt? "answer" data).getD .null with
  | .null => ""
  | v => v.display

/-- The members of data. -/
def membersOf : Json → Object
  | .obj ms => ms
  | _ => []

/-- What the surface does. -/
inductive Action where
  /-- Tell about the catalog. -/
  | health
  /-- Take an answer. -/
  | turn
  /-- Forget where a conversation stands. -/
  | reset
  deriving DecidableEq, Repr

namespace Action

/-- All actions. -/
def all : List Action := [.health, .turn, .reset]

/-- The path of an action. -/
def path : Action → String
  | .health => "/api/health"
  | .turn => "/api/turn"
  | .reset => "/api/reset"

/-- The methods of an action. -/
def methods : Action → List String
  | .health => ["GET", "HEAD"]
  | .turn => ["POST"]
  | .reset => ["POST"]

end Action

/-- What a path leads to. -/
inductive Target where
  /-- An action. -/
  | action (a : Action)
  /-- An asset, which does not exist. -/
  | asset
  deriving DecidableEq, Repr

namespace Target

/-- The folder of assets. -/
def assetFolder : String := "/static/"

/-- A path of an asset: something follows the folder, and it does not begin with a slash. -/
def isAsset (path : List Char) : Bool :=
  assetFolder.toList.isPrefixOf path &&
    match path.drop assetFolder.length with
    | [] => false
    | c :: _ => c != '/'

/-- What a path leads to, if it leads anywhere. -/
def ofPath? (path : List Char) : Option Target :=
  match Action.all.find? fun a => a.path.toList == path with
  | some a => some (.action a)
  | none => if isAsset path then some .asset else none

/-- The methods that a target takes. -/
def methods : Target → List String
  | .action a => "OPTIONS" :: a.methods
  | .asset => ["OPTIONS", "GET", "HEAD"]

end Target

variable {σ : Type} [Store σ]

/-- The response to an answer, and the world after it. -/
def respondTurn (f : Flow) (data : Json) (w : World σ) : Response × World σ :=
  match userOf data with
  | .error _ => (⟨500, none⟩, w)
  | .ok user =>
    if user = "" then (failure 400 userMissing, w)
    else
      let ms := membersOf data
      let channel := (Assoc.valueAt? "channel" ms).getD .null
      match (f.processTurn user (.str (answerOf ms)) channel).run w with
      | (.error _, w) => (failure 500 genericError, w)
      | (.ok r, w) => (⟨200, some (.obj (r.toObject ++ [("success", .bool true)]))⟩, w)

/-- The response to a reset, and the world after it. -/
def respondReset (data : Json) (w : World σ) : Response × World σ :=
  match userOf data with
  | .error _ => (⟨500, none⟩, w)
  | .ok user =>
    if user = "" then (failure 400 userMissing, w)
    else
      match (Flow.reset user : TurnM σ Unit).run w with
      | (.error _, w) => (⟨500, none⟩, w)
      | (.ok _, w) => (⟨200, some (.obj [("success", .bool true)])⟩, w)

/-- What is told about a catalog. -/
def health (c : Catalog) : Response :=
  ⟨200, some (.obj [("status", .str "ok"), ("catalog", .str c.name), ("version", .str c.version)])⟩

/-- The response to an action. -/
def perform (f : Flow) (a : Action) (r : Request) (w : World σ) : Response × World σ :=
  match a with
  | .health => (if r.method = "HEAD" then ⟨200, none⟩ else health f.catalog, w)
  | .turn => respondTurn f (payload r) w
  | .reset => respondReset (payload r) w

/-- The response to a request for a target that takes its method, and the world after it. -/
def serve (f : Flow) (t : Target) (r : Request) (w : World σ) : Response × World σ :=
  if r.method = "OPTIONS" then (⟨200, none⟩, w)
  else
    match t with
    | .action a => perform f a r w
    | .asset => (⟨404, none⟩, w)

/-- The response to a request whose path leads nowhere as it is written. -/
def redirect (r : Request) (path : List Char) : Response :=
  match Target.ofPath? (Url.merge path) with
  | some t => ⟨if t.methods.contains r.method then 308 else 405, none⟩
  | none => ⟨404, none⟩

/-- The response to a request, and the world after it. -/
def respond (f : Flow) (r : Request) (w : World σ) : Response × World σ :=
  let path := Url.route r.path
  match Target.ofPath? path with
  | some t => if t.methods.contains r.method then serve f t r w else (⟨405, none⟩, w)
  | none => (redirect r path, w)

/-- The responses to requests one after the other. -/
def respondAll (f : Flow) : List Request → World σ → List Response × World σ
  | [], w => ([], w)
  | r :: rest, w =>
    let (response, w) := respond f r w
    let (responses, w) := respondAll f rest w
    (response :: responses, w)

end Questionnaire.Web
