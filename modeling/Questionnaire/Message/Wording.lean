import Questionnaire.Message.Pattern

/-!
# Messages and their wording

Everything the questionnaire says on its own account has an identifier and a standard wording, and a
catalog may replace the wording.

## Main Definitions

* `Message` - the messages
* `Message.render` - a message in its final wording
* `Message.renderNamed` - the message of an identifier in its final wording
-/

namespace Questionnaire

/-- The patterns of a value that should be a text; a value that is not filled is the empty
pattern. -/
def Pattern.renderValue (pattern : Json) (values : Object) : Except Fault String :=
  match pattern with
  | .str s => Pattern.render s values
  | v => if v.isFilled then .error (.noPart v.kindName "format_map") else .ok ""

/-- A message to the user. -/
inductive Message where
  /-- An answer is blank. -/
  | answerEmpty
  /-- An answer is neither yes nor no. -/
  | answerNotBoolean
  /-- An answer is no number. -/
  | answerNotNumber
  /-- An answer is none of the options. -/
  | answerNotOption
  /-- An answer names no option. -/
  | answerNotOptions
  /-- A number is below its lower limit. -/
  | numberBelowMin
  /-- A number is above its upper limit. -/
  | numberAboveMax
  /-- A number is between two steps. -/
  | numberStep
  /-- How to start a table. -/
  | tableStart
  /-- How to write a row, after one that could not be read. -/
  | tableRetry
  /-- A row was taken. -/
  | tableMore
  /-- What was collected in a stage. -/
  | stageSummary
  /-- A summary leaves details out. -/
  | summaryMore
  /-- The conversation is handed over. -/
  | handoff
  /-- The questionnaire is complete. -/
  | terminal
  deriving DecidableEq, Repr

namespace Message

/-- All messages. -/
def all : List Message := [
  .answerEmpty, .answerNotBoolean, .answerNotNumber, .answerNotOption, .answerNotOptions,
  .numberBelowMin, .numberAboveMax, .numberStep, .tableStart, .tableRetry, .tableMore,
  .stageSummary, .summaryMore, .handoff, .terminal]

/-- The identifier of a message. -/
def identifier : Message → String
  | .answerEmpty => "answer_empty"
  | .answerNotBoolean => "answer_not_boolean"
  | .answerNotNumber => "answer_not_number"
  | .answerNotOption => "answer_not_option"
  | .answerNotOptions => "answer_not_options"
  | .numberBelowMin => "number_below_min"
  | .numberAboveMax => "number_above_max"
  | .numberStep => "number_step"
  | .tableStart => "table_start"
  | .tableRetry => "table_retry"
  | .tableMore => "table_more"
  | .stageSummary => "stage_summary"
  | .summaryMore => "summary_more"
  | .handoff => "handoff"
  | .terminal => "terminal"

/-- The message of an identifier. -/
def ofIdentifier? (name : String) : Option Message := all.find? (·.identifier == name)

/-- The standard wording of a message, as a pattern. -/
def wording : Message → String
  | .answerEmpty => "I didn't catch that - could you answer again briefly?"
  | .answerNotBoolean => "Could you answer \"yes\" or \"no\"?"
  | .answerNotNumber => "Could you write a number?"
  | .answerNotOption => "Please choose one of the options: \x7boptions\x7d"
  | .answerNotOptions => "Please choose one or more of the options: \x7boptions\x7d"
  | .numberBelowMin => "The value must be at least \x7blimit\x7d"
  | .numberAboveMax => "The value must be at most \x7blimit\x7d"
  | .numberStep => "The value must be in steps of \x7bstep\x7d"
  | .tableStart =>
    "To fill the table, send one row in the format: \x7bexample\x7d. Write \"done\" when finished."
  | .tableRetry =>
    "Let's do this row by row. Send one row in the format: \x7bexample\x7d. " ++
      "Write \"done\" when finished."
  | .tableMore => "Got it. Another row? Send it now, or write \"done\"."
  | .stageSummary =>
    "Quick summary so far: \x7bstage_summary\x7d. If anything is off, tell me and we'll fix it."
  | .summaryMore => "and \x7bcount\x7d more details"
  | .handoff => "Thanks. A specialist will continue with you from here."
  | .terminal => "Thanks, we have everything we need."

/-- The pattern under an identifier: the one of the catalog if it is filled, else the given
one. -/
def patternUnder (name : String) (overrides : Fields) (standard : Json) : Json :=
  ((Assoc.valueAt? (.str name) overrides).getD .null).filledOr standard

/-- A message in its final wording. -/
def render (m : Message) (overrides : Fields) (values : Object) : Except Fault String :=
  Pattern.renderValue (patternUnder m.identifier overrides (.str m.wording)) values

/-- The message of an identifier in its final wording; an identifier without a wording says
nothing. -/
def renderNamed (name : String) (overrides : Fields) (values : Object) : Except Fault String :=
  match ofIdentifier? name with
  | some m => m.render overrides values
  | none => Pattern.renderValue (patternUnder name overrides (.str "")) values

/-- The message of an identifier, which has to exist. -/
def named (name : String) : Except Fault Message :=
  match ofIdentifier? name with
  | some m => .ok m
  | none => .error (.unknownMessage name)

theorem ofIdentifier?_identifier (m : Message) : ofIdentifier? m.identifier = some m := by
  cases m <;> decide

end Message

end Questionnaire
