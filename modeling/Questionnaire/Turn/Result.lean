import Questionnaire.Answer.Reading
import Questionnaire.State.Checks
import Questionnaire.Store.Record

/-!
# The outcome of a turn

## Main Definitions

* `TurnResult` - what a turn says and what it did
* `TurnResult.toJson` - the part of it that clients see
-/

namespace Questionnaire

/-- What a turn leads to. -/
inductive TurnKind where
  /-- A question is asked. -/
  | prompt
  /-- The conversation is handed over. -/
  | handoff
  /-- Nothing is left to ask. -/
  | terminal
  deriving DecidableEq, Repr

namespace TurnKind

/-- The name of a kind. -/
def name : TurnKind → String
  | .prompt => "prompt"
  | .handoff => "handoff"
  | .terminal => "terminal"

end TurnKind

/-- Why a question is asked again. -/
inductive TurnError where
  /-- The answer was rejected. -/
  | rejection (r : Answer.Rejection)
  /-- A check failed. -/
  | failure (f : ValidationFailure)

namespace TurnError

/-- What the user is told. -/
def message : TurnError → Json
  | .rejection r => .str r.message
  | .failure f => f.message

end TurnError

/-- What a turn did, for diagnosis. -/
inductive TurnNote where
  /-- Nothing. -/
  | nothing
  /-- An answer was applied. -/
  | applied (given derived : Fields) (pending : Nat)
  /-- Rows were added to a table, which has this many now. -/
  | tableRows (count : Nat)

/-- What a turn says and what it did. -/
structure TurnResult where
  /-- What the turn leads to. -/
  kind : TurnKind
  /-- The text for the user. -/
  output : String
  /-- The question that is asked. -/
  question : Option NextQuestion := none
  /-- The active section. -/
  sectionKey : Json := .null
  /-- The text before the question. -/
  intro : String := ""
  /-- Why the question is asked again. -/
  error : Option TurnError := none
  /-- Why the conversation is handed over. -/
  handoffReasons : List Json := []
  /-- What is to be done then. -/
  handoffActions : List Json := []
  /-- The pointer was out of date and the answer was discarded. -/
  isStale : Bool := false
  /-- The states that the conversation went through. -/
  transitions : List FlowStatus := []
  /-- What the turn did. -/
  note : TurnNote := .nothing

namespace TurnResult

/-- A question as clients see it. -/
def questionJson (q : NextQuestion) : Json :=
  .obj [("qid", q.qid), ("stage_key", q.stageKey), ("stage_title", q.stageTitle),
    ("prompt", q.prompt), ("data_type", .str q.dataType.name), ("input_kind", q.inputKind),
    ("options", .arr (q.options.map Json.str))]

/-- The part of a result that clients see. -/
def toObject (r : TurnResult) : Object :=
  [("kind", .str r.kind.name), ("system_output", .str r.output), ("section_key", r.sectionKey),
    ("intro", .str r.intro), ("stale_pointer_recovered", .bool r.isStale),
    ("transitions", .arr (r.transitions.map fun t => .str t.name))]
  ++ (match r.question with
    | some q => [("question", questionJson q)]
    | none => [])
  ++ (match r.error with
    | some e => [("error", e.message)]
    | none => [])
  ++ if r.kind = .handoff then
    [("handoff_reasons", .arr r.handoffReasons), ("handoff_actions", .arr r.handoffActions)]
  else []

/-- The part of a result that clients see, as data. -/
def toJson (r : TurnResult) : Json := .obj r.toObject

end TurnResult

end Questionnaire
