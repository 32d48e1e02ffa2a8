import Questionnaire.State.Basic

/-!
# Selecting questions

A question is asked when it is for customers, its module is enabled, its value is missing or
provisional, and its conditions hold.  The next question is the first of these in the order of
stages.

## Main Definitions

* `NextQuestion` - a question ready to be shown
* `State.shouldAsk` - whether a question is asked
* `State.nextQuestion?` - the next question
-/

namespace Questionnaire

/-- A question ready to be shown on a channel. -/
structure NextQuestion where
  /-- The identifier. -/
  qid : Json
  /-- The stage. -/
  stageKey : Json
  /-- The title of the stage. -/
  stageTitle : Json
  /-- The text for the channel. -/
  prompt : Json
  /-- The field that receives the value. -/
  fieldKey : Json
  /-- The type of the value. -/
  dataType : DataType
  /-- How the answer is entered. -/
  inputKind : Json
  /-- The options to choose from. -/
  options : List String
  /-- The limits of a number. -/
  constraints : Json
  /-- The place of the value in the form document. -/
  jsonPath : String

namespace State

/-- A question whose module is not enabled is left out, unless its stage is exempt. -/
def isGatedOut (s : State) (stage : Stage) (q : Question) : Except Fault Bool :=
  if stage.isGatingExempt || !q.moduleKey.isFilled then .ok false
  else do
    let key ← q.moduleKey.asKey
    pure (!s.enabled.contains key)

/-- A question is settled when its value was given. -/
def isSettled (s : State) (q : Question) : Except Fault Bool := do
  let key ← q.fieldKey.asKey
  pure (s.statusOf key != .defaulted && (s.valueOf key).isAnswered)

/-- Whether a question of a stage is asked. -/
def shouldAsk (s : State) (stage : Stage) (q : Question) : Except Fault Bool := do
  if !q.isForCustomer then return false
  if ← s.isGatedOut stage q then return false
  if ← q.isOutOfBand then return false
  if ← s.isSettled q then return false
  return s.holds q.askIf && s.holds q.requiredIf

/-- A question of a stage as it is shown on a channel. -/
def present (stage : Stage) (channel : Json) (q : Question) : NextQuestion where
  qid := q.qid
  stageKey := q.stageKey.filledOr stage.key
  stageTitle := stage.title
  prompt := q.promptFor channel
  fieldKey := q.fieldKey
  dataType := q.dataType
  inputKind := q.inputKind
  options := q.options
  constraints := q.constraints
  jsonPath := q.jsonPath

/-- The first question of a stage that is asked. -/
def firstOf? (s : State) (stage : Stage) : List Question → Except Fault (Option Question)
  | [] => .ok none
  | q :: rest => do
    if ← s.shouldAsk stage q then return some q
    firstOf? s stage rest

/-- The first question of some stages that is asked. -/
def firstIn? (c : Catalog) (s : State) (channel : Json) :
    List Stage → Except Fault (Option NextQuestion)
  | [] => .ok none
  | stage :: rest =>
    if s.holds stage.askIf then do
      match ← s.firstOf? stage (c.questionsOf stage) with
      | some q => pure (some (present stage channel q))
      | none => firstIn? c s channel rest
    else firstIn? c s channel rest

/-- The stages of a catalog with the given keys, in the order of the catalog. -/
def stagesWithin (c : Catalog) (keys : List Json) : Except Fault (List Stage) := do
  let keys ← keys.mapM Json.asKey
  pure (c.stages.filter fun stage => keys.contains stage.key)

/-- The next question of the stages with the given keys, or of all stages. -/
def nextQuestion? (c : Catalog) (s : State) (keys : Option (List Json)) (channel : Json) :
    Except Fault (Option NextQuestion) := do
  let stages ←
    match keys with
    | some ks => stagesWithin c ks
    | none => pure c.stages
  firstIn? c s channel stages

end State

/-- The stage that a question belongs to, one without title if the catalog has none. -/
def Catalog.stageOf (c : Catalog) (q : Question) : Except Fault Stage := do
  let key ← q.stageKey.asKey
  pure ((c.stage? key).getD { key := key })

/-- A question as it is shown on a channel, whether it would be asked or not. -/
def Catalog.view (c : Catalog) (q : Question) (channel : Json) : Except Fault NextQuestion := do
  let stage ← c.stageOf q
  pure (State.present stage channel q)

end Questionnaire
