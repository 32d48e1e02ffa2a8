import Questionnaire.Fault

/-!
# Catalogs

The definition of a questionnaire: its questions in stages, the stages in processes, and the rules
that act on the collected values.

## Main Definitions

* `Question`, `Stage`, `Section` - what is asked, in which order
* `CoverageModule`, `DerivedRule`, `ComputedVar` - what follows from collected values
* `Validation`, `HandoffTrigger`, `AttachmentItem` - what is checked after an answer
* `Catalog` - all of it

## Design Notes

A catalog is written by hand, and most entries may hold any value.  What is not checked on loading
is kept as it was written, so an entry of the wrong kind shows where it is used.
-/

namespace Questionnaire

/-- The type of the value of an answer. -/
inductive DataType where
  /-- A text. -/
  | string
  /-- A number. -/
  | number
  /-- A truth value. -/
  | boolean
  /-- One of several options. -/
  | enum
  /-- Several options, or the rows of a table. -/
  | array
  /-- A date, as a text. -/
  | date
  deriving DecidableEq, Repr

namespace DataType

/-- All data types. -/
def all : List DataType := [.string, .number, .boolean, .enum, .array, .date]

/-- The name of a data type. -/
def name : DataType → String
  | .string => "string"
  | .number => "number"
  | .boolean => "boolean"
  | .enum => "enum"
  | .array => "array"
  | .date => "date"

/-- The data type of a name. -/
def ofName? (s : String) : Option DataType := all.find? (·.name == s)

/-- A data type whose answers are taken as they are. -/
def isFreeText (t : DataType) : Bool := t == .string || t == .date

end DataType

/-- Whether a question has to be answered. -/
inductive Requirement where
  /-- It has to be answered. -/
  | required
  /-- It may be left out. -/
  | optional
  /-- It has to be answered under a condition. -/
  | conditional
  deriving DecidableEq, Repr

namespace Requirement

/-- The name of a requirement. -/
def name : Requirement → String
  | .required => "required"
  | .optional => "optional"
  | .conditional => "conditional"

end Requirement

/-- Texts for channels, the name of a channel first. -/
abbrev Variants := List (String × Json)

namespace Variants

/-- The text for a channel, the standard one if there is none. -/
def textFor (variants : Variants) (standard channel : Json) : Json :=
  if channel.isFilled then
    match variants.find? fun v => (Json.str v.1).equal channel && v.2.isFilled with
    | some v => v.2
    | none => standard
  else standard

end Variants

/-- A question. -/
structure Question where
  /-- The identifier. -/
  qid : Json
  /-- The stage that the question belongs to. -/
  stageKey : Json
  /-- The field that receives the value. -/
  fieldKey : Json
  /-- The type of the value. -/
  dataType : DataType := .string
  /-- The text that is shown. -/
  prompt : Json := .str ""
  /-- How the answer is entered. -/
  inputKind : Json := .str ""
  /-- The options to choose from. -/
  options : List String := []
  /-- The limits of a number. -/
  constraints : Json := .null
  /-- The condition of asking the question. -/
  askIf : Json := .str ""
  /-- The condition of requiring an answer. -/
  requiredIf : Json := .str ""
  /-- Whether an answer is required at all. -/
  requirement : Requirement := .required
  /-- The coverage module that the question belongs to. -/
  moduleKey : Json := .str ""
  /-- How the answer is collected. -/
  collectionMode : Json := .str ""
  /-- The place of the value in the form document. -/
  jsonPath : String := ""
  /-- Whom the question is for. -/
  audience : Json := .str "customer"
  /-- The texts for channels. -/
  promptVariants : Variants := []
  /-- The columns of a table. -/
  tableColumns : List Json := []
  /-- The short name in summaries. -/
  label : Json := .str ""

namespace Question

/-- The way of collecting an answer names attachments. -/
def namesAttachment (mode : Json) : Except Fault Bool :=
  match mode with
  | .str s => .ok (Text.occursIn "attachment" s)
  | .arr xs => .ok (xs.contains (.str "attachment"))
  | .obj ms => .ok (Assoc.hasKey "attachment" ms)
  | v => if v.isFilled then .error (.notCollection v.kindName) else .ok false

/-- Files and attachments are delivered outside the conversation. -/
def isOutOfBand (q : Question) : Except Fault Bool :=
  if q.inputKind == .str "file" then .ok true else namesAttachment q.collectionMode

/-- A table is collected row by row. -/
def isTable (q : Question) : Bool := q.inputKind == .str "table" && q.dataType == .array

/-- The text that is shown on a channel. -/
def promptFor (q : Question) (channel : Json) : Json := q.promptVariants.textFor q.prompt channel

/-- A question for customers is asked; any other is internal. -/
def isForCustomer (q : Question) : Bool := q.audience == .str "customer"

end Question

/-- What happens when a stage is left. -/
structure Checkpoint where
  /-- A summary of the stage is sent. -/
  sendSummary : Bool := false
  /-- The pattern of the summary. -/
  template : Json := .str ""

/-- A group of questions. -/
structure Stage where
  /-- The key. -/
  key : Json
  /-- The title. -/
  title : Json := .str ""
  /-- The identifiers of the questions, in order. -/
  questionIds : List Json := []
  /-- The condition of the stage. -/
  askIf : Json := .str ""
  /-- The text that is sent when the conversation enters the stage. -/
  intro : Json := .str ""
  /-- The introductions for channels. -/
  introVariants : Variants := []
  /-- What happens when the stage is left. -/
  checkpoint : Checkpoint := {}
  /-- The questions are asked whether their modules are enabled or not. -/
  isGatingExempt : Bool := false

namespace Stage

/-- The introduction on a channel. -/
def introFor (s : Stage) (channel : Json) : Json := s.introVariants.textFor s.intro channel

end Stage

/-- A part of the questionnaire that a condition enables. -/
structure CoverageModule where
  /-- The key. -/
  key : Json
  /-- The title. -/
  title : Json
  /-- The condition. -/
  enableIf : Json

/-- A value that follows from others. -/
structure DerivedRule where
  /-- The field that receives the value. -/
  target : Json
  /-- The condition. -/
  setWhen : Json
  /-- The value. -/
  value : Json
  /-- The question whose place in the document receives the value too. -/
  mapsTo : Json

/-- The operation of a computed variable. -/
inductive ComputedOp where
  /-- The sum of all terms. -/
  | sum
  /-- The first term that is not zero. -/
  | firstNonzero
  deriving DecidableEq, Repr

namespace ComputedOp

/-- The name of an operation. -/
def name : ComputedOp → String
  | .sum => "sum"
  | .firstNonzero => "first_nonzero"

end ComputedOp

/-- A term of a computed variable: the first of its fields that is not zero, times a factor. -/
structure ComputedTerm where
  /-- The fields. -/
  fields : List Json
  /-- The factor. -/
  factor : Binary64

/-- A variable that is computed from fields. -/
structure ComputedVar where
  /-- The variable. -/
  target : Json
  /-- The operation. -/
  op : ComputedOp
  /-- The terms. -/
  terms : List ComputedTerm

/-- A check of a numeric field. -/
structure Validation where
  /-- The name. -/
  name : Json
  /-- The field. -/
  fieldKey : Json
  /-- The message when the check fails. -/
  error : Json
  /-- The condition. -/
  when_ : Json
  /-- The least value. -/
  min : Json
  /-- The greatest value. -/
  max : Json
  /-- The step. -/
  multipleOf : Json

/-- A reason to hand the conversation over. -/
structure HandoffTrigger where
  /-- The key. -/
  key : Json
  /-- The condition. -/
  when_ : Json
  /-- The reason. -/
  reason : Json
  /-- The action. -/
  action : Json

/-- A file that is delivered outside the conversation. -/
structure AttachmentItem where
  /-- The question. -/
  qid : Json
  /-- The field. -/
  fieldKey : Json
  /-- The place in the form document. -/
  jsonPath : Json
  /-- The title. -/
  title : Json
  /-- The condition. -/
  when_ : Json
  /-- Notes for the user. -/
  notes : Json

/-- A section of the conversation. -/
structure Section where
  /-- The key. -/
  key : Json
  /-- The title. -/
  title : Json
  /-- The stages that are collected in the section. -/
  stageKeys : List Json
  /-- The condition of the section. -/
  askIf : Json
  /-- The section that has to follow. -/
  forcedNext : Json

/-- The definition of a questionnaire. -/
structure Catalog where
  /-- The name. -/
  name : String
  /-- The version. -/
  version : String
  /-- The provisional values of fields. -/
  defaults : Fields
  /-- The wording of messages. -/
  messages : Fields
  /-- The questions under their identifiers. -/
  questions : Assoc Json Question
  /-- The stages in order. -/
  stages : List Stage
  /-- The coverage modules. -/
  modules : List CoverageModule
  /-- The derived rules in order. -/
  derivedRules : List DerivedRule
  /-- The computed variables in order. -/
  computedVars : List ComputedVar
  /-- The checks in order. -/
  validations : List Validation
  /-- The handoff triggers in order. -/
  handoffTriggers : List HandoffTrigger
  /-- The attachments in order. -/
  attachments : List AttachmentItem
  /-- The processes under their keys. -/
  processes : Assoc Json Section
  /-- The keys of the processes in the order of routing. -/
  processOrder : List Json

namespace Catalog

/-- The question of an identifier. -/
def question? (c : Catalog) (qid : Json) : Option Question := Assoc.valueAt? qid c.questions

/-- The stage of a key. -/
def stage? (c : Catalog) (key : Json) : Option Stage := c.stages.find? (·.key == key)

/-- The process of a key. -/
def process? (c : Catalog) (key : Json) : Option Section := Assoc.valueAt? key c.processes

/-- The stages of a process. -/
def stageKeysOf (c : Catalog) (key : Json) : List Json :=
  match c.process? key with
  | some p => p.stageKeys
  | none => []

/-- The questions of a stage in order. -/
def questionsOf (c : Catalog) (s : Stage) : List Question := s.questionIds.filterMap c.question?

/-- The first process in the order of routing that collects a stage. -/
def processOfStage? (c : Catalog) (stageKey : Json) : Option Json :=
  c.processOrder.find? fun key => (c.stageKeysOf key).contains stageKey

/-- The targets of the computed variables. -/
def computedTargets (c : Catalog) : List Json := c.computedVars.map (·.target)

end Catalog

end Questionnaire
