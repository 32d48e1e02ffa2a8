import Questionnaire.State.Basic
import Questionnaire.Message.Wording

/-!
# Summaries of stages

When a stage is left, its answers may be summarised: a few of them by short names and values, and
the number of the rest.

## Main Definitions

* `Question.shortLabel` - the short name of a question
* `State.stageSummary` - the summary of a stage
* `State.checkpointText?` - what is sent when a stage is left
-/

namespace Questionnaire

namespace Question

/-- The greatest length of a short name. -/
def labelLength : Nat := 80

/-- A text without a question mark at its end. -/
def withoutMark (cs : List Char) : List Char :=
  match cs.reverse with
  | [] => []
  | c :: rest => if c = '?' ∨ c = '？' then rest.reverse else cs

/-- The short name of a question: its label, its text or its field. -/
def shortLabel (q : Question) : Except Fault String :=
  match q.label.filledOr (q.prompt.filledOr q.fieldKey) with
  | .str s =>
    let cs := Text.collapseFrom false (Text.trimChars s.toList)
    .ok (String.ofList ((withoutMark cs).take labelLength))
  | v => .error (.noPart v.kindName "strip")

end Question

namespace State

/-- The number of answers that a summary shows. -/
def summaryLength : Int := 4

/-- A question has a place in summaries when it is for customers and is no file. -/
def isSummarised (q : Question) : Bool := q.isForCustomer && !(q.inputKind == .str "file")

/-- The answered questions of a stage that have a place in summaries, with their values. -/
def answeredIn (c : Catalog) (s : State) (stage : Stage) :
    Except Fault (List (Question × Json)) := do
  let pairs ← ((c.questionsOf stage).filter isSummarised).mapM fun q => do
    let v ← Path.get s.document q.jsonPath
    pure (q, v)
  pure (pairs.filter fun p => p.2.isAnswered)

/-- An answer with its short name. -/
def summaryPair (p : Question × Json) : Except Fault String := do
  let label ← p.1.shortLabel
  pure (label ++ ": " ++ p.2.summary)

/-- The summary of a stage with at most `limit` answers, empty if none is shown. -/
def stageSummary (c : Catalog) (s : State) (stageKey : Json) (limit : Int) :
    Except Fault String := do
  let key ← stageKey.asKey
  match c.stage? key with
  | none => pure ""
  | some stage => do
    let answered ← answeredIn c s stage
    let pairs ← (answered.take limit.toNat).mapM summaryPair
    if pairs.isEmpty then pure ""
    else
      let shown := String.intercalate "; " pairs
      let more : Int := (answered.length : Int) - pairs.length
      if 0 < more then do
        let suffix ← Message.summaryMore.render c.messages [("count", .int more)]
        pure (shown ++ "; " ++ suffix)
      else pure shown

/-- A pattern without the blanks around it; a pattern that is not filled is empty. -/
def trimmedPattern (v : Json) : Except Fault String :=
  match v with
  | .str s => .ok (Text.trim s)
  | w => if w.isFilled then .error (.noPart w.kindName "strip") else .ok ""

/-- What is sent when a stage is left: nothing if it has no checkpoint, or neither a pattern nor
answers. -/
def checkpointText? (c : Catalog) (s : State) (stageKey : Json) :
    Except Fault (Option String) := do
  let key ← stageKey.asKey
  match c.stage? key with
  | none => pure none
  | some stage =>
    if stage.checkpoint.sendSummary then do
      let summary ← stageSummary c s stageKey summaryLength
      let pattern ← trimmedPattern stage.checkpoint.template
      if pattern ≠ "" then
        some <$> Pattern.render pattern [("stage_summary", .str summary)]
      else if summary = "" then pure none
      else some <$> Message.stageSummary.render c.messages [("stage_summary", .str summary)]
    else pure none

end State

end Questionnaire
