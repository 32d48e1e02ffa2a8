import Questionnaire.Proofs.Lookup
import Questionnaire.Proofs.Turn.Conversation
import Questionnaire.Surface.Web

/-!
# The form of responses

A request to take an answer or to forget a conversation is answered by an object that says whether
it has succeeded.  The user is looked up in the data of the request before any failure is caught, so
data that has no members leads to a bare failure.

## Main Definitions

* `Web.posted` - a request with some data
* `Web.nameIn` - the user that data names
* `Web.InFormat` - a response in the form that clients can rely on

## Main Statements

* `Web.inFormat_iff` - a response has this form exactly if the data of the request is an object,
  where missing, unreadable and unfilled data counts as an empty one
* `Web.not_inFormat_list` - a list is not answered in this form
-/

namespace Questionnaire.Web

/-- A request for an action with a body of some type. -/
def posted (a : Action) (body : String) (contentType : Option String) : Request where
  method := "POST"
  path := a.path
  body := body
  contentType := contentType

/-- The user that data names, empty if it names none.  Data that has no members names none. -/
def nameIn (data : Json) : String :=
  match userOf data with
  | .ok user => user
  | .error _ => ""

/-- A response to a request with some data, in the form that clients can rely on: an object that
tells whether the request has succeeded, and if it has not, whether that is for want of a user. -/
inductive InFormat (data : Json) : Response → Prop where
  /-- The request has succeeded. -/
  | succeeded {members : Object} (named : nameIn data ≠ "")
      (h : Assoc.valueAt? "success" members = some (.bool true)) :
      InFormat data ⟨200, some (.obj members)⟩
  /-- The request names no user. -/
  | userMissing (unnamed : nameIn data = "") : InFormat data (failure 400 userMissing)
  /-- The request has failed, and the cause is not told. -/
  | failed (named : nameIn data ≠ "") : InFormat data (failure 500 genericError)

theorem not_inFormat_bare (data : Json) (status : Nat) : ¬ InFormat data ⟨status, none⟩ := nofun

/-- No part of a result has the name under which success is told. -/
theorem valueAt?_success (r : TurnResult) :
    Assoc.valueAt? "success" (r.toObject ++ [("success", .bool true)]) = some (.bool true) := by
  unfold TurnResult.toObject
  by_cases hkind : r.kind = .handoff
  · rw [if_pos hkind]
    cases r.question <;> cases r.error <;> rfl
  · rw [if_neg hkind]
    cases r.question <;> cases r.error <;> rfl

/-! ## Users -/

/-- In an object a user is always looked up. -/
theorem userOf_obj (members : Object) : userOf (.obj members) = .ok (nameIn (.obj members)) := rfl

/-- In data that is no object no user can be looked up. -/
theorem userOf_eq_error {data : Json} (h : ∀ members, data ≠ .obj members) :
    ∃ e, userOf data = .error e := by
  cases data with
  | obj members => exact absurd rfl (h members)
  | _ => exact ⟨_, rfl⟩

/-! ## Responses -/

variable (f : Flow) (w : World MemoryStore)

theorem inFormat_respondTurn_iff (data : Json) :
    InFormat data (respondTurn f data w).1 ↔ ∃ members, data = .obj members := by
  constructor
  · intro h
    by_contra hdata
    obtain ⟨e, he⟩ := userOf_eq_error fun members hobj => hdata ⟨members, hobj⟩
    rw [respondTurn, he] at h
    exact not_inFormat_bare data 500 h
  · rintro ⟨members, rfl⟩
    rw [respondTurn, userOf_obj]
    dsimp only
    split
    · next unnamed => exact .userMissing unnamed
    · next named =>
      -- every failure of the turn is caught
      split
      · exact .failed named
      · exact .succeeded named (valueAt?_success _)

theorem inFormat_respondReset_iff (data : Json) :
    InFormat data (respondReset data w).1 ↔ ∃ members, data = .obj members := by
  constructor
  · intro h
    by_contra hdata
    obtain ⟨e, he⟩ := userOf_eq_error fun members hobj => hdata ⟨members, hobj⟩
    rw [respondReset, he] at h
    exact not_inFormat_bare data 500 h
  · rintro ⟨members, rfl⟩
    rw [respondReset, userOf_obj]
    dsimp only
    split
    · next unnamed => exact .userMissing unnamed
    · next named =>
      -- in memory a pointer can always be removed
      exact .succeeded named rfl

/-- The path of an action leads to the action. -/
theorem ofPath?_route (a : Action) : Target.ofPath? (Url.route a.path) = some (.action a) := by
  cases a <;> decide +kernel

/-- A posted request reaches an action that takes it. -/
theorem respond_posted {a : Action} (h : a.methods = ["POST"]) (body : String)
    (contentType : Option String) :
    respond f (posted a body contentType) w = perform f a (posted a body contentType) w := by
  have hmethod : (Target.action a).methods.contains "POST" = true := by
    rw [Target.methods, h]
    decide
  have htarget : Target.ofPath? (Url.route (posted a body contentType).path) = some (.action a) :=
    ofPath?_route a
  have hother : ¬ "POST" = "OPTIONS" := by decide
  simp only [respond, htarget]
  simp only [posted, hmethod, if_true, serve]
  exact if_neg hother

/-- Whatever its body and its type are, a request to take an answer and a request to forget a
conversation are answered in the form that clients can rely on exactly if the data of the request
is an object.  Data that is missing, unreadable or not filled counts as an empty object. -/
theorem inFormat_iff (body : String) (contentType : Option String) :
    (InFormat (payload (posted .turn body contentType))
        (respond f (posted .turn body contentType) w).1 ↔
      ∃ members, payload (posted .turn body contentType) = .obj members) ∧
    (InFormat (payload (posted .reset body contentType))
        (respond f (posted .reset body contentType) w).1 ↔
      ∃ members, payload (posted .reset body contentType) = .obj members) := by
  rw [respond_posted f w rfl, respond_posted f w rfl]
  exact ⟨inFormat_respondTurn_iff f w _, inFormat_respondReset_iff w _⟩

/-- A list in the place of an object is answered by a bare failure, where a request without a user
would be told so. -/
theorem not_inFormat_list : ∃ c : Catalog, c.Accepted ∧
    ¬ InFormat (payload (posted .turn "[1]" (some "application/json")))
      (respond (Flow.mk c none) (posted .turn "[1]" (some "application/json"))
        Flow.untouchedWorld).1 := by
  have evaluated : Outcome.Gives (Catalog.ofJson Flow.greeting "catalog.json") fun _ =>
      (payload (posted .turn "[1]" (some "application/json"))).kindName = "list" := by
    decide +kernel
  obtain ⟨⟨c, warnings⟩, hc, hkind⟩ := evaluated
  refine ⟨c, ⟨_, "catalog.json", warnings, hc⟩, fun h => ?_⟩
  rw [respond_posted _ _ rfl, perform] at h
  obtain ⟨members, hobj⟩ := (inFormat_respondTurn_iff _ _ _).1 h
  rw [hobj] at hkind
  have : ¬ "dict" = "list" := by decide
  exact this hkind

end Questionnaire.Web
