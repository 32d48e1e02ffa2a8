import Questionnaire.Json.Entries

/-!
# Records of the conversation

What is kept about a user besides the collected values: where the conversation stands, and which
sections were completed.

## Main Definitions

* `FlowStatus` - the states of the conversation
* `Pointer` - where the conversation of a user stands
* `CompletionRecord` - a completed section
-/

namespace Questionnaire

/-- The states of the conversation. -/
inductive FlowStatus where
  /-- A question is pending. -/
  | active
  /-- A section was completed. -/
  | sectionComplete
  /-- The next section was chosen. -/
  | routed
  /-- Nothing is left to ask. -/
  | terminal
  deriving DecidableEq, Repr

namespace FlowStatus

/-- All states. -/
def all : List FlowStatus := [.active, .sectionComplete, .routed, .terminal]

/-- The name of a state. -/
def name : FlowStatus → String
  | .active => "active"
  | .sectionComplete => "section_complete"
  | .routed => "routed"
  | .terminal => "terminal"

/-- The state of a name. -/
def ofJson? (v : Json) : Option FlowStatus := all.find? fun s => v == .str s.name

theorem ofJson?_name (s : FlowStatus) : ofJson? (.str s.name) = some s := by
  cases s <;> decide

end FlowStatus

/-- Where the conversation of a user stands. -/
structure Pointer where
  /-- The active section, absent at the end. -/
  sectionKey : Json
  /-- The pending question, empty if there is none. -/
  position : Json := .str ""
  /-- The stage of the pending question. -/
  stageKey : Json := .str ""
  /-- The state of the conversation. -/
  status : FlowStatus := .active
  /-- The identifier of this passage through the section. -/
  sessionId : Json := .str ""

namespace Pointer

/-- The conversation is over. -/
def isTerminal (p : Pointer) : Bool := p.status == .terminal

/-- The pointer at another question. -/
def advance (p : Pointer) (qid stageKey : Json) : Pointer :=
  { p with position := qid, stageKey := stageKey }

/-- A pointer as data. -/
def toJson (p : Pointer) : Json :=
  .obj [("active_section_key", p.sectionKey), ("position", p.position),
    ("stage_key", p.stageKey), ("status", .str p.status.name), ("session_id", p.sessionId)]

/-- The pointer that data describes; without a status it is active. -/
def ofJson (v : Json) : Except Fault Pointer := do
  let sectionKey ← v.partOrNull "active_section_key"
  let position ← v.partOrNull "position"
  let stageKey ← v.partOrNull "stage_key"
  let status ← v.part "status"
  let sessionId ← v.partOrNull "session_id"
  let named := status.getD (.str FlowStatus.active.name)
  match FlowStatus.ofJson? named with
  | none => .error (.unknownStatus named)
  | some st =>
    pure ⟨sectionKey, position.filledOr (.str ""), stageKey.filledOr (.str ""), st,
      sessionId.filledOr (.str "")⟩

end Pointer

/-- A completed section. -/
structure CompletionRecord where
  /-- The section. -/
  sectionKey : Json
  /-- Where in the section it was completed. -/
  position : Json
  /-- The identifier of the passage through the section. -/
  sessionId : Json
  /-- The time of completion. -/
  completedAt : Json

namespace CompletionRecord

/-- The position of a section that was completed as a whole. -/
def mainPosition : String := "main"

/-- A record as data. -/
def toJson (r : CompletionRecord) : Json :=
  .obj [("section_key", r.sectionKey), ("position", r.position), ("session_id", r.sessionId),
    ("completed_at", r.completedAt)]

/-- The record that data describes; the section is required. -/
def ofJson (v : Json) : Except Fault CompletionRecord :=
  match v with
  | .obj ms =>
    match Assoc.valueAt? "section_key" ms with
    | none => .error (.missingEntry "section_key")
    | some key =>
      .ok ⟨key, (Assoc.valueAt? "position" ms).getD (.str mainPosition),
        (Assoc.valueAt? "session_id" ms).getD (.str ""),
        (Assoc.valueAt? "completed_at" ms).getD (.str "")⟩
  | w => .error (.notDefined "item" w.kindName)

theorem ofJson_toJson (r : CompletionRecord) : ofJson r.toJson = .ok r := rfl

end CompletionRecord

end Questionnaire
