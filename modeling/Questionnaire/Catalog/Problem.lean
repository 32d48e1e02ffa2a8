import Questionnaire.Json.Literal

/-!
# Problems of a catalog

What can be wrong with the definition of a questionnaire.  A catalog with problems is refused, and
the refusal lists all of them.

## Main Definitions

* `Catalog.Problem` - one defect
* `Catalog.Refusal` - why a catalog is refused
-/

namespace Questionnaire

namespace Catalog

/-- One defect of a catalog. -/
inductive Problem where
  /-- A question has no identifier. -/
  | questionWithoutId (index : Nat)
  /-- Two questions have one identifier. -/
  | duplicateQuestion (qid : Json)
  /-- A question has no field. -/
  | questionWithoutField (qid : Json)
  /-- A question has an unknown data type. -/
  | unknownDataType (qid : Json) (name : String)
  /-- A question has an unknown requirement. -/
  | unknownRequirement (qid : Json) (value : Json)
  /-- The path of a question does not start with a key. -/
  | pathWithoutKey (qid : Json) (path : String)
  /-- A stage has no key. -/
  | stageWithoutKey (index : Nat)
  /-- Two stages have one key. -/
  | duplicateStage (key : Json)
  /-- A module has no key. -/
  | moduleWithoutKey (index : Nat)
  /-- A derived rule lacks its target or its condition. -/
  | incompleteRule (index : Nat)
  /-- A computed variable has no target. -/
  | computedWithoutTarget (index : Nat)
  /-- A computed variable has an unknown operation. -/
  | unknownOperation (target : Json) (name : Json)
  /-- A term of a computed variable names no field. -/
  | termWithoutFields (target : Json)
  /-- A validation has no field. -/
  | validationWithoutField (index : Nat)
  /-- A handoff trigger has no condition. -/
  | triggerWithoutCondition (index : Nat)
  /-- A process has no key. -/
  | processWithoutKey (index : Nat)
  /-- Two processes have one key. -/
  | duplicateProcess (key : Json)
  /-- There is no stage at all. -/
  | noStages
  /-- A stage lists a question that does not exist. -/
  | unknownQuestion (stage : Json) (qid : Json)
  /-- A process lists a stage that does not exist. -/
  | unknownStage (process : Json) (stage : Json)
  /-- Two processes list one stage. -/
  | sharedStage (stage : Json) (first second : Json)
  /-- The forced successor of a process does not exist. -/
  | unknownSuccessor (process : Json) (successor : Json)
  /-- The process order names a process that does not exist. -/
  | unknownInOrder (process : Json)
  /-- The process order names a process twice. -/
  | duplicateInOrder (process : Json)

/-- The wording of a defect. -/
def Problem.message : Problem → String
  | .questionWithoutId i => s!"Question at index {i} missing 'qid'"
  | .duplicateQuestion q => "Duplicate question id '" ++ q.display ++ "'"
  | .questionWithoutField q => "Question '" ++ q.display ++ "' missing 'field_key'"
  | .unknownDataType q t =>
    "Question '" ++ q.display ++ "' has unsupported data_type '" ++ t ++ "'"
  | .unknownRequirement q v =>
    "Question '" ++ q.display ++ "' has invalid required_mode '" ++ v.display ++ "'"
  | .pathWithoutKey q p =>
    "Question '" ++ q.display ++ "' has json_path '" ++ p ++ "' that does not start with a key"
  | .stageWithoutKey i => s!"Stage at index {i} missing 'stage_key'"
  | .duplicateStage k => "Duplicate stage key '" ++ k.display ++ "'"
  | .moduleWithoutKey i => s!"Module at index {i} missing 'module_key'"
  | .incompleteRule i => s!"Derived rule at index {i} needs 'target_field' and 'set_when'"
  | .computedWithoutTarget i => s!"Computed var at index {i} missing 'target'"
  | .unknownOperation t o =>
    "Computed var '" ++ t.display ++ "' has unsupported op '" ++ o.display ++ "'"
  | .termWithoutFields t => "Computed var '" ++ t.display ++ "' has a term without fields"
  | .validationWithoutField i => s!"Production validation at index {i} missing 'field_key'"
  | .triggerWithoutCondition i => s!"Handoff trigger at index {i} missing 'when'"
  | .processWithoutKey i => s!"Process at index {i} missing 'process_key'"
  | .duplicateProcess k => "Duplicate process key '" ++ k.display ++ "'"
  | .noStages => "Catalog defines no stages"
  | .unknownQuestion s q =>
    "Stage '" ++ s.display ++ "' references undefined question '" ++ q.display ++ "'"
  | .unknownStage p s =>
    "Process '" ++ p.display ++ "' references undefined stage '" ++ s.display ++ "'"
  | .sharedStage s p q =>
    "Stage '" ++ s.display ++ "' belongs to both '" ++ p.display ++ "' and '" ++ q.display ++ "'"
  | .unknownSuccessor p s =>
    "Process '" ++ p.display ++ "' forces undefined process '" ++ s.display ++ "'"
  | .unknownInOrder p =>
    "Process '" ++ p.display ++ "' in process_order but not defined in processes"
  | .duplicateInOrder p => "Duplicate process '" ++ p.display ++ "' in process_order"

/-- Why a catalog is refused. -/
inductive Refusal where
  /-- The text is not a written value. -/
  | unreadable (source : String)
  /-- The value is not an object. -/
  | notObject (source : String)
  /-- The catalog has defects. -/
  | defective (problems : List Problem)

/-- The wording of a refusal. -/
def Refusal.message : Refusal → String
  | .unreadable source => "Catalog is not valid JSON: " ++ source
  | .notObject source => "Catalog root must be an object (" ++ source ++ ")"
  | .defective problems =>
    "Catalog validation failed:\n  - "
      ++ String.intercalate "\n  - " (problems.map Problem.message)

end Catalog

end Questionnaire
