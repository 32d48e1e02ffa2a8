import Questionnaire.Catalog.Findings
import Questionnaire.Json.Entries
import Questionnaire.Json.Path
import Questionnaire.Json.Reading

/-!
# Entries of a catalog

How each kind of entry is read from data.  Members that are not filled have their standard values,
and several members have an older name.

## Main Definitions

* `Catalog.readQuestions`, `Catalog.readStages`, `Catalog.readProcesses`, … - the entries of a list
-/

namespace Questionnaire.Catalog

/-- The empty text as a value. -/
def emptyText : Json := .str ""

/-- A member of an entry, the empty text if it is not filled. -/
def textAt (item : Json) (name : String) : Except Fault Json := do
  let v ← item.partOrNull name
  pure (v.filledOr emptyText)

/-- A member of an entry, or the member of an older name; the empty text if neither is filled. -/
def eitherAt (item : Json) (name older : String) : Except Fault Json := do
  let v ← item.partOrNull name
  let w ← item.partOrNull older
  pure (v.filledOr (w.filledOr emptyText))

/-- The items of a member of an entry, none if it is not filled. -/
def listAt (item : Json) (name : String) : Except Fault (List Json) := do
  let v ← item.partOrNull name
  if v.isFilled then v.itemsOver else pure []

/-- The texts for channels in a member of an entry. -/
def variantsAt (item : Json) (name : String) : Except Fault Variants := do
  match ← item.partOrNull name with
  | .obj ms => pure ms
  | v => if v.isFilled then .error (.noPart v.kindName "items") else pure []

/-- The options that a value lists: the parts of a text between commas, or the texts of the items
of a list. -/
def optionsOf (v : Json) : Except Fault (List String) :=
  if v.isFilled then
    match v with
    | .str s => .ok (Text.splitTrimmed (· == ',') s)
    | w => do
      let items ← w.itemsOver
      pure ((items.map fun i => Text.trim i.display).filter (· ≠ ""))
  else .ok []

/-- The requirement of a word, in its new and its old spelling. -/
def requirementOf? : String → Option Requirement
  | "y" => some .required
  | "yes" => some .required
  | "n" => some .optional
  | "no" => some .optional
  | "required" => some .required
  | "optional" => some .optional
  | "conditional" => some .conditional
  | _ => none

/-- The requirement of a question.  Without one, a question with a condition is required under the
condition, and any other is required. -/
def readRequirement? (mode requiredIf : Json) : Option Requirement :=
  let word := Unicode.lower (Text.trim (mode.filledOr emptyText).display)
  if word = "" then
    if Text.isBlank (requiredIf.filledOr emptyText).display then some .required
    else some .conditional
  else requirementOf? word

/-- A path that starts with a key. -/
def startsWithKey (path : String) : Except Fault Bool := do
  match ← Path.parse path with
  | .key _ :: _ => pure true
  | _ => pure false

/-- The path of a question, which has to be a text. -/
def pathText (v : Json) : Except Fault String :=
  match v with
  | .str s => .ok s
  | w => .error (.notText w.kindName)

/-- The question that an entry describes, its identifier and the checked members given. -/
def questionOf (item qid fieldKey : Json) (dataType : DataType) (requirement : Requirement)
    (jsonPath : String) : Except Fault Question := do
  let audience ← item.partOrNull "audience"
  pure {
    qid := qid
    stageKey := ← textAt item "stage_key"
    fieldKey := fieldKey
    dataType := dataType
    prompt := ← textAt item "prompt"
    inputKind := ← eitherAt item "input_kind" "input_type"
    options := ← optionsOf (← item.partOrNull "options")
    constraints := ← item.partOrNull "constraints"
    askIf := ← textAt item "ask_if"
    requiredIf := ← textAt item "required_if"
    requirement := requirement
    moduleKey := ← textAt item "module_key"
    collectionMode := ← textAt item "collection_mode"
    jsonPath := jsonPath
    audience := audience.filledOr (.str "customer")
    promptVariants := ← variantsAt item "prompt_variants"
    tableColumns := ← listAt item "table_columns"
    label := ← textAt item "label" }

/-- The question of an entry, given the questions before it. -/
def readQuestion (before : Assoc Json Question) (index : Nat) (item : Json) :
    Build (Option Question) := do
  let qid ← eitherAt item "qid" "q_id"
  if !qid.isFilled then return ← Build.reject (.questionWithoutId index)
  let qid ← qid.asKey
  if Assoc.hasKey qid before then return ← Build.reject (.duplicateQuestion qid)
  let fieldKey ← item.partOrNull "field_key"
  if !fieldKey.isFilled then return ← Build.reject (.questionWithoutField qid)
  let typeName :=
    Unicode.lower ((← item.partOrNull "data_type").filledOr (.str DataType.string.name)).display
  match DataType.ofName? typeName with
  | none => Build.reject (.unknownDataType qid typeName)
  | some dataType =>
    let mode ← item.partOrNull "required_mode"
    match readRequirement? mode (← item.partOrNull "required_if") with
    | none => Build.reject (.unknownRequirement qid mode)
    | some requirement =>
      let path ← pathText ((← item.partOrNull "json_path").filledOr fieldKey)
      if !(← startsWithKey path) then return ← Build.reject (.pathWithoutKey qid path)
      let q ← questionOf item qid fieldKey dataType requirement path
      pure (some q)

/-- The questions of entries, counted from `index`, after the questions before them. -/
def readQuestions : Assoc Json Question → Nat → List Json → Build (Assoc Json Question)
  | before, _, [] => pure before
  | before, index, item :: rest => do
    match ← readQuestion before index item with
    | some q => readQuestions (before ++ [(q.qid, q)]) (index + 1) rest
    | none => readQuestions before (index + 1) rest

/-- The identifiers of the questions that name a stage, in order. -/
def questionsNaming (questions : Assoc Json Question) (stageKey : Json) : List Json :=
  (questions.filter fun e => e.2.stageKey.equal stageKey).map fun e => e.2.qid

/-- The identifiers of the questions of a stage: those that it lists, or those that name it. -/
def questionIdsOf (questions : Assoc Json Question) (key item : Json) :
    Except Fault (List Json) := do
  match ← item.partOrNull "question_ids" with
  | .null => pure (questionsNaming questions key)
  | v => v.itemsOver

/-- What happens when a stage is left. -/
def checkpointOf (item : Json) : Except Fault Checkpoint := do
  let v ← item.partOrNull "completion_checkpoint"
  let v := v.filledOr (.obj [])
  let send ← v.partOrNull "send_summary"
  let template ← textAt v "summary_template"
  pure ⟨send.isFilled, template⟩

/-- The stage of an entry, given the keys of the stages before it. -/
def readStage (questions : Assoc Json Question) (exempt before : List Json) (index : Nat)
    (item : Json) : Build (Option Stage) := do
  let key ← item.partOrNull "stage_key"
  if !key.isFilled then return ← Build.reject (.stageWithoutKey index)
  let key ← key.asKey
  if before.contains key then return ← Build.reject (.duplicateStage key)
  let title ← item.partOrNull "title"
  let stage : Stage := {
    key := key
    title := title.filledOr key
    questionIds := ← questionIdsOf questions key item
    askIf := ← textAt item "ask_if"
    intro := ← textAt item "intro"
    introVariants := ← variantsAt item "intro_variants"
    checkpoint := ← checkpointOf item
    isGatingExempt := (← item.partOrNull "module_gating_exempt").isFilled || exempt.contains key }
  pure (some stage)

/-- The stages of entries, counted from `index`, after the stages before them. -/
def readStages (questions : Assoc Json Question) (exempt : List Json) :
    List Stage → Nat → List Json → Build (List Stage)
  | before, _, [] => pure before
  | before, index, item :: rest => do
    match ← readStage questions exempt (before.map (·.key)) index item with
    | some s => readStages questions exempt (before ++ [s]) (index + 1) rest
    | none => readStages questions exempt before (index + 1) rest

/-- The questions, those of `ids` without a stage of their own put into a stage. -/
def placeQuestions (stageKey : Json) :
    List Json → Assoc Json Question → Except Fault (Assoc Json Question)
  | [], questions => .ok questions
  | id :: rest, questions => do
    let qid ← id.asKey
    match Assoc.valueAt? qid questions with
    | some q =>
      placeQuestions stageKey rest
        (if q.stageKey.isFilled then questions
         else Assoc.put qid { q with stageKey := stageKey } questions)
    | none => placeQuestions stageKey rest questions

/-- The questions, those without a stage of their own put into the first stage that lists them. -/
def placeAll : List Stage → Assoc Json Question → Except Fault (Assoc Json Question)
  | [], questions => .ok questions
  | s :: rest, questions => do
    let questions ← placeQuestions s.key s.questionIds questions
    placeAll rest questions

/-- The coverage module of an entry. -/
def readModule (index : Nat) (item : Json) : Build (Option CoverageModule) := do
  let key ← item.partOrNull "module_key"
  if !key.isFilled then return ← Build.reject (.moduleWithoutKey index)
  let title ← item.partOrNull "title"
  pure (some ⟨key, title.filledOr key, ← textAt item "enable_if"⟩)

/-- The derived rule of an entry. -/
def readRule (index : Nat) (item : Json) : Build (Option DerivedRule) := do
  let target ← item.partOrNull "target_field"
  let setWhen ← item.partOrNull "set_when"
  if !(target.isFilled && setWhen.isFilled) then
    return ← Build.reject (.incompleteRule index)
  let value ← item.partOrNull "value"
  pure (some ⟨target, setWhen, value, ← eitherAt item "maps_to_qid" "maps_to_q_id"⟩)

/-- The fields of a term: a list of fields, or one field. -/
def termFields (term : Json) : Except Fault (List Json) := do
  let fields ← term.partOrNull "fields"
  if fields.isFilled then fields.itemsOver
  else
    let field ← term.partOrNull "field"
    pure (if field.isFilled then [field] else [])

/-- The factor of a term, one if there is none. -/
def termFactor (term : Json) : Except Fault Binary64 := do
  let factor ← term.part "factor"
  (factor.getD (.int 1)).asFloat

/-- The term of an entry: a text is a field. -/
def readTerm (target : Json) (_index : Nat) (term : Json) : Build (Option ComputedTerm) := do
  match term with
  | .str s => pure (some ⟨[.str s], .ofInt 1⟩)
  | t => do
    let given ← t.partOrNull "fields"
    let single ← t.partOrNull "field"
    if !(given.isFilled || single.isFilled) then
      return ← Build.reject (.termWithoutFields target)
    let fields ← termFields t
    let factor ← termFactor t
    pure (some ⟨fields, factor⟩)

/-- The operation of a name. -/
def operationOf? (v : Json) : Option ComputedOp :=
  [ComputedOp.sum, .firstNonzero].find? fun op => v == .str op.name

/-- The computed variable of an entry. -/
def readComputed (index : Nat) (item : Json) : Build (Option ComputedVar) := do
  let target ← item.partOrNull "target"
  let op := (← item.partOrNull "op").filledOr (.str ComputedOp.sum.name)
  if !target.isFilled then return ← Build.reject (.computedWithoutTarget index)
  let op ← op.asKey
  match operationOf? op with
  | none => Build.reject (.unknownOperation target op)
  | some operation =>
    let terms ← Build.collect (readTerm target) 0 (← listAt item "terms")
    pure (some ⟨target, operation, terms⟩)

/-- The check of an entry. -/
def readValidation (index : Nat) (item : Json) : Build (Option Validation) := do
  let fieldKey ← item.partOrNull "field_key"
  if !fieldKey.isFilled then return ← Build.reject (.validationWithoutField index)
  let rule := (← item.partOrNull "rule").filledOr (.obj [])
  let name ← item.partOrNull "name"
  let step ← rule.part "multipleOf"
  let olderStep ← rule.partOrNull "multiple_of"
  pure (some {
    name := name.filledOr (.str s!"validation_{index}")
    fieldKey := fieldKey
    error := ← textAt item "error"
    when_ := ← textAt item "when"
    min := ← rule.partOrNull "min"
    max := ← rule.partOrNull "max"
    multipleOf := step.getD olderStep })

/-- The handoff trigger of an entry. -/
def readTrigger (index : Nat) (item : Json) : Build (Option HandoffTrigger) := do
  let when_ ← item.partOrNull "when"
  if !when_.isFilled then return ← Build.reject (.triggerWithoutCondition index)
  let key ← item.partOrNull "trigger_key"
  pure (some ⟨key.filledOr (.str s!"handoff_{index}"), when_, ← textAt item "reason",
    ← textAt item "action"⟩)

/-- The attachment of an entry.  One without a field is left out with a warning. -/
def readAttachment (_index : Nat) (item : Json) : Build (Option AttachmentItem) := do
  let fieldKey ← item.partOrNull "field_key"
  let path ← item.partOrNull "json_path"
  if fieldKey.isFilled then
    let title ← item.partOrNull "title"
    pure (some {
      qid := ← eitherAt item "qid" "q_id"
      fieldKey := fieldKey
      jsonPath := path.filledOr fieldKey
      title := title.filledOr fieldKey
      when_ := ← textAt item "when"
      notes := ← textAt item "notes" })
  else
    Build.warn (.attachmentWithoutField item)
    pure none

/-- The process of an entry, given the processes before it. -/
def readProcess (before : Assoc Json Section) (index : Nat) (item : Json) :
    Build (Option Section) := do
  let key ← item.partOrNull "process_key"
  if !key.isFilled then return ← Build.reject (.processWithoutKey index)
  let key ← key.asKey
  if Assoc.hasKey key before then return ← Build.reject (.duplicateProcess key)
  let title ← item.partOrNull "title"
  pure (some ⟨key, title.filledOr key, ← listAt item "stage_keys", ← textAt item "ask_if",
    ← textAt item "forced_next"⟩)

/-- The processes of entries, counted from `index`, after the processes before them. -/
def readProcesses : Assoc Json Section → Nat → List Json → Build (Assoc Json Section)
  | before, _, [] => pure before
  | before, index, item :: rest => do
    match ← readProcess before index item with
    | some p => readProcesses (before ++ [(p.key, p)]) (index + 1) rest
    | none => readProcesses before (index + 1) rest

/-- The key of the only process of a catalog that defines none. -/
def onlyProcessKey : Json := .str "main"

/-- The only process of a catalog that defines none: it collects all stages. -/
def onlyProcess (name : String) (stages : List Stage) : Section :=
  ⟨onlyProcessKey, .str name, stages.map (·.key), emptyText, emptyText⟩

end Questionnaire.Catalog
