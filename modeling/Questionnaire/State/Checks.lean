import Questionnaire.Answer.Limits
import Questionnaire.State.Selection

/-!
# Checks on the collected values

## Main Definitions

* `State.firstFailure?` - the first check that fails
* `State.pendingAttachments` - the files that are still missing
* `State.firedTriggers` - the reasons to hand the conversation over
* `State.missingQuestions` - the required questions without a value
* `State.isComplete` - whether a section needs no more answers
-/

namespace Questionnaire

/-- A check that failed. -/
structure ValidationFailure where
  /-- The name of the check. -/
  ruleName : Json
  /-- The field that was checked. -/
  fieldKey : Json
  /-- What the user is told. -/
  message : Json

/-- A file that is still missing. -/
structure PendingAttachment where
  /-- The question. -/
  qid : Json
  /-- The field. -/
  fieldKey : Json
  /-- The title. -/
  title : Json
  /-- The place in the form document. -/
  jsonPath : Json
  /-- Notes for the user. -/
  notes : Json

namespace PendingAttachment

/-- A missing file as data. -/
def toJson (p : PendingAttachment) : Json :=
  .obj [("qid", p.qid), ("field_key", p.fieldKey), ("title", p.title), ("json_path", p.jsonPath),
    ("notes", p.notes)]

end PendingAttachment

/-- A reason to hand the conversation over that applies. -/
structure FiredHandoff where
  /-- The key of the trigger. -/
  key : Json
  /-- The reason. -/
  reason : Json
  /-- The action. -/
  action : Json

namespace Validation

/-- A bound of a check as a number, if there is one. -/
def bound? (v : Json) : Except Fault (Option Quantity) :=
  match v with
  | .null => .ok none
  | w =>
    match w.quantity? with
    | some q => .ok (some q)
    | none => .error (.notDefined "comparison" w.kindName)

/-- A number fails a check when it is too small, too large or between two steps. -/
def rejects (rule : Validation) (x : Binary64) : Except Fault Bool := do
  if let some least ← bound? rule.min then
    if x.quantity.lt least then return true
  if let some greatest ← bound? rule.max then
    if greatest.lt x.quantity then return true
  match rule.multipleOf with
  | .null => return false
  | step => return !(← Limits.isMultiple (.float x) step)

/-- The currency sign that a checked text may hold. -/
def currencySign : Char := '₪'

/-- The number of a value that is checked, if it denotes one. -/
def checkedNumber? (v : Json) : Except Fault (Option Binary64) :=
  match v with
  | .str s =>
    if s = "" then .ok none else (Json.str (Text.without (· == currencySign) s)).number?
  | w => w.number?

end Validation

namespace State

/-- The first of some checks that fails.  A check of a field without a number is left out. -/
def firstFailing? (s : State) : List Validation → Except Fault (Option ValidationFailure)
  | [] => .ok none
  | rule :: rest =>
    if s.holds rule.when_ then do
      let v ← s.values.at rule.fieldKey
      match ← Validation.checkedNumber? v with
      | none => firstFailing? s rest
      | some x =>
        if ← rule.rejects x then pure (some ⟨rule.name, rule.fieldKey, rule.error⟩)
        else firstFailing? s rest
    else firstFailing? s rest

/-- The first check of a catalog that fails. -/
def firstFailure? (c : Catalog) (s : State) : Except Fault (Option ValidationFailure) :=
  firstFailing? s c.validations

/-- A file is pending when its condition holds and its place in the document is empty. -/
def isPending (s : State) (item : AttachmentItem) : Except Fault Bool :=
  if item.when_.isFilled && !s.holds item.when_ then .ok false
  else do
    let v ← Path.getAt s.document item.jsonPath
    pure (!v.isAnswered)

/-- The files that are still missing. -/
def pendingAttachments (c : Catalog) (s : State) : Except Fault (List PendingAttachment) := do
  let items ← c.attachments.filterM s.isPending
  pure (items.map fun i => ⟨i.qid, i.fieldKey, i.title, i.jsonPath, i.notes⟩)

/-- The reasons to hand the conversation over that apply. -/
def firedTriggers (c : Catalog) (s : State) : List FiredHandoff :=
  (c.handoffTriggers.filter fun t => s.holds t.when_).map fun t => ⟨t.key, t.reason, t.action⟩

/-- A question is required when it is not optional and its conditions hold. -/
def isRequired (s : State) (q : Question) : Bool :=
  q.requirement != .optional && s.holds q.askIf && s.holds q.requiredIf

/-- Whether a required question of a stage has no value. -/
def isMissing (s : State) (stage : Stage) (q : Question) : Except Fault Bool := do
  if !q.isForCustomer then return false
  if ← q.isOutOfBand then return false
  if ← s.isGatedOut stage q then return false
  if !s.isRequired q then return false
  let v ← s.values.at q.fieldKey
  return !v.isPresent

/-- The required questions of some stages without a value. -/
def missingIn (c : Catalog) (s : State) : List Stage → Except Fault (List Question)
  | [] => .ok []
  | stage :: rest =>
    if s.holds stage.askIf then do
      let here ← (c.questionsOf stage).filterM (s.isMissing stage)
      let further ← missingIn c s rest
      pure (here ++ further)
    else missingIn c s rest

/-- The required questions of the stages with the given keys that have no value. -/
def missingQuestions (c : Catalog) (s : State) (keys : List Json) :
    Except Fault (List Question) := do
  let stages ← stagesWithin c keys
  missingIn c s stages

/-- A section is complete when its condition fails, or when no required question lacks a value. -/
def isComplete (c : Catalog) (s : State) (keys : List Json) (askIf : Json) : Except Fault Bool :=
  if askIf.isFilled && !s.holds askIf then .ok true
  else do
    let missing ← missingQuestions c s keys
    pure missing.isEmpty

end State

end Questionnaire
