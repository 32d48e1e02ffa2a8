import Questionnaire.Answer.Amount
import Questionnaire.Answer.Choice
import Questionnaire.Answer.Limits
import Questionnaire.Answer.YesNo

/-!
# Reading answers

An answer is read according to the data type of its question.  An answer that cannot be read, or
that violates a limit, is rejected with a message.

## Main Definitions

* `Answer.Rejection` - a rejected answer
* `Answer.read` - the value of an answer, or its rejection
-/

namespace Questionnaire.Answer

/-- Why an answer is rejected. -/
inductive Cause where
  /-- The answer is blank. -/
  | empty
  /-- The answer is neither yes nor no. -/
  | notBoolean
  /-- The answer is no number. -/
  | notNumber
  /-- The answer violates a limit. -/
  | limit (violation : Limits.Violation)
  /-- The answer is none of the options. -/
  | notOption
  /-- The answer names something that is no option. -/
  | notOptions

namespace Cause

/-- The code of a cause. -/
def code : Cause → String
  | .empty => "empty"
  | .notBoolean => "not_boolean"
  | .notNumber => "not_number"
  | .limit v => v.code
  | .notOption => "not_option"
  | .notOptions => "not_options"

/-- The message of a cause and the values of its placeholders. -/
def notice (options : List String) : Cause → Message × Object
  | .empty => (.answerEmpty, [])
  | .notBoolean => (.answerNotBoolean, [])
  | .notNumber => (.answerNotNumber, [])
  | .limit v => v.notice
  | .notOption => (.answerNotOption, [("options", .str (String.intercalate ", " options))])
  | .notOptions => (.answerNotOptions, [("options", .str (String.intercalate ", " options))])

end Cause

/-- A rejected answer. -/
structure Rejection where
  /-- The question. -/
  qid : Json
  /-- What the user is told. -/
  message : String
  /-- The code of the cause. -/
  code : String

/-- The rejection of an answer for a cause. -/
def reject (q : Question) (overrides : Fields) (cause : Cause) : Except Fault Rejection := do
  let (m, values) := cause.notice q.options
  let message ← m.render overrides values
  pure ⟨q.qid, message, cause.code⟩

/-- The value of a number within its limits, or the cause of its rejection. -/
def readNumber (q : Question) (s : String) : Except Fault (Except Cause Json) :=
  match readAmount? s with
  | none => .ok (.error .notNumber)
  | some v => do
    let limits ← Limits.ofJson q.constraints
    match ← limits.violation? v with
    | some violation => pure (.error (.limit violation))
    | none => pure (.ok v)

/-- The value of a trimmed answer that is not blank, or the cause of its rejection. -/
def readTyped (q : Question) (s : String) : Except Fault (Except Cause Json) :=
  match q.dataType with
  | .boolean =>
    match readYesNo? s with
    | some b => .ok (.ok (.bool b))
    | none => .ok (.error .notBoolean)
  | .number => readNumber q s
  | .enum =>
    match choose? s q.options with
    | some o => .ok (.ok (.str o))
    | none => .ok (.error .notOption)
  | .array =>
    match chooseMany? s q.options with
    | some os => .ok (.ok (.arr (os.map Json.str)))
    | none => .ok (.error .notOptions)
  | .string => .ok (.ok (.str s))
  | .date => .ok (.ok (.str s))

/-- The value of an answer, or its rejection. -/
def read (q : Question) (answer : String) (overrides : Fields) :
    Except Fault (Except Rejection Json) := do
  let s := Text.trim answer
  let outcome ← if s = "" then pure (.error .empty) else readTyped q s
  match outcome with
  | .ok v => pure (.ok v)
  | .error cause => do
    let r ← reject q overrides cause
    pure (.error r)

end Questionnaire.Answer
