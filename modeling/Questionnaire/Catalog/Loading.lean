import Questionnaire.Catalog.Entries

/-!
# Loading catalogs

A catalog is read from data entry by entry, and then its references are checked.  It is refused with
all its defects, and conditions that cannot be read are only warned about, because they simply never
hold.

## Main Definitions

* `Catalog.ofJson` - the catalog that data describes, with warnings
* `Catalog.ofText` - the catalog that a text describes
-/

namespace Questionnaire.Catalog

/-- A member that is an object with rules; one that is not filled has none. -/
def sectionAt (v : Json) (name : String) : Except Fault Json := do
  let w ← v.partOrNull name
  pure (w.filledOr (.obj []))

/-- The rules of the engine, which may stand under the runtime. -/
def contractOf (data : Json) : Except Fault Json := do
  let runtime ← sectionAt data "runtime"
  let inner ← runtime.partOrNull "engine_contract"
  let outer ← data.partOrNull "engine_contract"
  pure (inner.filledOr (outer.filledOr (.obj [])))

/-- A text about the catalog itself: under its description, or else at the top. -/
def aboutText (data about : Json) (name standard : String) : Except Fault String := do
  let inner ← about.partOrNull name
  let outer ← data.partOrNull name
  pure (inner.filledOr (outer.filledOr (.str standard))).display

/-- The named values in a member, none if it is not filled. -/
def namedAt (v : Json) (name : String) : Except Fault Fields := do
  let w ← v.partOrNull name
  if w.isFilled then Fields.update [] w else pure []

/-- The keys in a member, none if it is not filled. -/
def keysAt (v : Json) (name : String) : Except Fault (List Json) := do
  let items ← listAt v name
  items.mapM Json.asKey

/-- The processes of a catalog. -/
def processesOf (data : Json) (name : String) (stages : List Stage) :
    Build (Assoc Json Section) := do
  match ← listAt data "processes" with
  | [] => pure [(onlyProcessKey, onlyProcess name stages)]
  | item :: rest => readProcesses [] 0 (item :: rest)

/-- The order of routing: the one that is given, or that of the processes. -/
def orderOf (data : Json) (processes : Assoc Json Section) : Except Fault (List Json) := do
  match ← listAt data "process_order" with
  | [] => pure (Assoc.keyList processes)
  | item :: rest => pure (item :: rest)

/-- The catalog that data describes, its references unchecked. -/
def read (data : Json) : Build Catalog := do
  let about ← sectionAt data "meta"
  let name ← aboutText data about "name" "catalog"
  let version ← aboutText data about "version" "0"
  let contract ← contractOf data
  let defaults ← namedAt contract "defaults"
  let messages ← namedAt contract "messages"
  let exempt ← keysAt contract "module_gating_exempt_stages"
  let questions ← readQuestions [] 0 (← listAt data "questions")
  let stages ← readStages questions exempt [] 0 (← listAt data "stages")
  let questions ← placeAll stages questions
  let modules ← Build.collect readModule 0 (← listAt data "modules_catalog")
  let rules ← Build.collect readRule 0 (← listAt contract "derived_rules")
  let computed ← Build.collect readComputed 0 (← listAt contract "computed_vars")
  let validations ← Build.collect readValidation 0 (← listAt data "production_validations")
  let triggers ← Build.collect readTrigger 0 (← listAt data "handoff_triggers")
  let attachments ← Build.collect readAttachment 0 (← listAt data "attachments_checklist")
  let processes ← processesOf data name stages
  let order ← orderOf data processes
  pure ⟨name, version, defaults, messages, questions, stages, modules, rules, computed, validations,
    triggers, attachments, processes, order⟩

/-- Report the questions of a stage that do not exist. -/
def checkStage (c : Catalog) (s : Stage) : Build Unit :=
  s.questionIds.forM fun qid => do
    let key ← qid.asKey
    if !Assoc.hasKey key c.questions then Build.report (.unknownQuestion s.key qid)

/-- Report the stages of a process that do not exist or belong to another process; `owners` holds
the processes of stages so far. -/
def checkStageKeys (c : Catalog) (process : Json) :
    Assoc Json Json → List Json → Build (Assoc Json Json)
  | owners, [] => pure owners
  | owners, stage :: rest => do
    let key ← stage.asKey
    if (c.stage? key).isNone then
      Build.report (.unknownStage process stage)
      checkStageKeys c process owners rest
    else
      match Assoc.valueAt? key owners with
      | some owner =>
        Build.report (.sharedStage stage owner process)
        checkStageKeys c process owners rest
      | none => checkStageKeys c process (owners ++ [(key, process)]) rest

/-- Report the references of processes that do not hold. -/
def checkProcesses (c : Catalog) : Assoc Json Json → List (Json × Section) → Build Unit
  | _, [] => pure ()
  | owners, (key, p) :: rest => do
    let owners ← checkStageKeys c key owners p.stageKeys
    if p.forcedNext.isFilled then
      let next ← p.forcedNext.asKey
      if !Assoc.hasKey next c.processes then Build.report (.unknownSuccessor key p.forcedNext)
    checkProcesses c owners rest

/-- Report the processes in the order of routing that do not exist or stand there twice. -/
def checkOrder (c : Catalog) : List Json → List Json → Build Unit
  | _, [] => pure ()
  | seen, process :: rest => do
    let key ← process.asKey
    if !Assoc.hasKey key c.processes then Build.report (.unknownInOrder process)
    if seen.contains key then Build.report (.duplicateInOrder process)
    checkOrder c (seen ++ [key]) rest

/-- Warn of derived rules that map to unknown questions. -/
def checkRules (c : Catalog) : Build Unit :=
  c.derivedRules.forM fun r => do
    if r.mapsTo.isFilled then
      let key ← r.mapsTo.asKey
      if !Assoc.hasKey key c.questions then
        Build.warn (.ruleWithoutQuestion r.target r.mapsTo)

/-- All conditions of a catalog, each with the place where it stands. -/
def conditions (c : Catalog) : List (String × Json) :=
  c.stages.map (fun s => ("stage " ++ s.key.display ++ " ask_if", s.askIf))
  ++ c.questions.flatMap (fun e =>
    [("question " ++ e.2.qid.display ++ " ask_if", e.2.askIf),
      ("question " ++ e.2.qid.display ++ " required_if", e.2.requiredIf)])
  ++ c.modules.map (fun m => ("module " ++ m.key.display ++ " enable_if", m.enableIf))
  ++ c.derivedRules.map (fun r => ("derived rule " ++ r.target.display, r.setWhen))
  ++ c.validations.map (fun v => ("validation " ++ v.name.display, v.when_))
  ++ c.handoffTriggers.map (fun t => ("handoff " ++ t.key.display, t.when_))
  ++ c.attachments.map (fun a => ("attachment " ++ a.fieldKey.display, a.when_))
  ++ c.processes.map (fun e => ("process " ++ e.2.key.display ++ " ask_if", e.2.askIf))

/-- Warn of conditions that cannot be read. -/
def checkConditions (c : Catalog) : Build Unit :=
  c.conditions.forM fun p =>
    match Condition.checkSyntax p.2 with
    | some e => Build.warn (.malformedCondition p.1 e)
    | none => pure ()

/-- Check the references of a catalog. -/
def check (c : Catalog) : Build Unit := do
  if c.stages.isEmpty then Build.report .noStages
  c.stages.forM (checkStage c)
  checkProcesses c [] c.processes
  checkOrder c [] c.processOrder
  checkRules c
  checkConditions c

/-- The catalog that an object describes, read and checked. -/
def build (data : Json) : Build Catalog := do
  let c ← read data
  check c
  pure c

/-- The catalog that data from a source describes, with its warnings. -/
def ofJson (data : Json) (source : String) : Except Fault (Catalog × List Warning) :=
  match data with
  | .obj ms =>
    match (build (.obj ms)).run {} with
    | .error e => .error e
    | .ok (c, findings) =>
      match findings.problems with
      | [] => .ok (c, findings.warnings)
      | p :: ps => .error (.refused (.defective (p :: ps)))
  | _ => .error (.refused (.notObject source))

/-- The catalog that the text of a source describes, with its warnings; without a text there is no
catalog. -/
def ofText (text : Option String) (source : String) : Except Fault (Catalog × List Warning) :=
  match text with
  | none => .error (.missingFile source)
  | some s =>
    match Json.read s with
    | .ok data => ofJson data source
    | .error .malformed => .error (.refused (.unreadable source))
    | .error (.tooManyDigits count) => .error (.tooManyDigits count)

end Questionnaire.Catalog
