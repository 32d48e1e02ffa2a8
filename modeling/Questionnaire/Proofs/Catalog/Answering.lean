import Questionnaire.Proofs.Catalog.Legibility

/-!
# Which catalogs loading answers for

## Main Definitions

* `Catalog.Answers` - loading gives a catalog, or refuses to
* `Catalog.IsLoadable` - what has been read of a text is legible

## Main Statements

* `Catalog.decides_build` - loading gets through exactly the legible data
* `Catalog.answers_iff` - loading answers exactly if the text can be read and is legible
-/

namespace Questionnaire

namespace Catalog

/-! ## The rules of the engine -/

theorem decides_sectionAt {ms : List (String × Json)} (name : String) :
    Outcome.Decides true (· = sectionOf (.obj ms) name) (sectionAt (.obj ms) name) := .ok rfl

theorem decides_aboutText {ms : List (String × Json)} (about : Json) (name standard : String) :
    Outcome.Decides about.isObject (fun _ => about.isObject = true)
      (aboutText (.obj ms) about name standard) := by
  cases about with
  | obj ns => exact .ok rfl
  | _ => exact .error rfl

theorem decides_contractOf {ms : List (String × Json)} :
    Outcome.Decides (sectionOf (.obj ms) "runtime").isObject (· = rulesOf (.obj ms))
      (contractOf (.obj ms)) := by
  show Outcome.Decides _ _ (sectionAt (.obj ms) "runtime" >>= _)
  rw [← Bool.true_and (sectionOf (.obj ms) "runtime").isObject]
  refine (decides_sectionAt "runtime").bind fun runtime hruntime => ?_
  subst hruntime
  unfold rulesOf
  cases sectionOf (.obj ms) "runtime" with
  | obj ns => exact .ok rfl
  | _ => exact .error rfl

theorem decides_namedAt (v : Json) (name : String) :
    Outcome.Decides (v.isObject && (v.memberAt name).absentOr Json.holdsPairs)
      (fun _ => v.isObject = true) (namedAt v name) := by
  cases v with
  | obj ms =>
    rw [namedAt, partOrNull_obj, Outcome.ok_bind]
    unfold Json.absentOr
    cases filled : ((Json.obj ms).memberAt name).isFilled with
    | false => exact .ok rfl
    | true =>
      show Outcome.Decides ((Json.obj ms).memberAt name).holdsPairs _
        (Fields.update [] ((Json.obj ms).memberAt name))
      rw [← Bool.and_true ((Json.obj ms).memberAt name).holdsPairs]
      exact (Json.decides_entries filled).bind fun _ _ => .ok rfl
  | _ => exact .error rfl

theorem decides_keysAt {v : Json} (object : v.isObject = true) (name : String) :
    Outcome.Decides (hasItems v name Json.isKey) (fun _ => True) (keysAt v name) := by
  refine (decides_listAt object name).bind fun items hitems => ?_
  subst hitems
  exact (Outcome.decides_mapM (f := id) fun v _ => Json.decides_asKey v).imp fun _ _ => trivial

/-! ## References -/

theorem decides_placeQuestions (stageKey : Json) (ids : List Json)
    (questions : Assoc Json Question) :
    Outcome.Decides (ids.all Json.isKey) (fun _ => True)
      (placeQuestions stageKey ids questions) := by
  induction ids generalizing questions with
  | nil => exact .ok trivial
  | cons id rest ih =>
    rw [List.all_cons]
    refine (Json.decides_asKey id).bind fun key _ => ?_
    split
    · exact ih _
    · exact ih _

theorem decides_placeAll (stages : List Stage) (questions : Assoc Json Question) :
    Outcome.Decides (stages.all fun s => s.questionIds.all Json.isKey) (fun _ => True)
      (placeAll stages questions) := by
  induction stages generalizing questions with
  | nil => exact .ok trivial
  | cons s rest ih =>
    rw [List.all_cons]
    exact (decides_placeQuestions s.key s.questionIds questions).bind fun _ _ => ih _

theorem decides_checkStage (c : Catalog) (s : Stage) :
    Build.Decides (s.questionIds.all Json.isKey) (fun _ => True) (checkStage c s) := by
  refine .forM fun qid _ => ?_
  rw [← Bool.and_true qid.isKey]
  refine (Build.Decides.lift (Json.decides_asKey qid)).bind fun key _ => ?_
  split
  · exact .report _
  · exact .pure trivial

theorem decides_checkStageKeys (c : Catalog) (process : Json) (owners : Assoc Json Json)
    (stages : List Json) :
    Build.Decides (stages.all Json.isKey) (fun _ => True)
      (checkStageKeys c process owners stages) := by
  induction stages generalizing owners with
  | nil => exact .pure trivial
  | cons stage rest ih =>
    rw [List.all_cons]
    refine (Build.Decides.lift (Json.decides_asKey stage)).bind fun key _ => ?_
    have reported (p : Problem) :=
      (Build.Decides.report p).bind (Q := fun _ => True) fun _ _ => ih owners
    rw [Bool.true_and] at reported
    split
    · exact reported _
    · split
      · exact reported _
      · exact ih _

/-- A report that is made or not does not decide anything. -/
theorem Build.Decides.orReport {β : Type} {b : Bool} {Q : β → Prop} {c : Prop} [Decidable c]
    {p : Problem} {k : Unit → Build β} (h : ∀ u, Build.Decides b Q (k u)) :
    Build.Decides b Q (if c then Build.report p >>= k else k ()) := by
  split
  · rw [← Bool.true_and b]
    exact (Build.Decides.report p).bind fun u _ => h u
  · exact h ()

theorem decides_checkProcesses (c : Catalog) (owners : Assoc Json Json)
    (processes : List (Json × Section)) :
    Build.Decides (processes.all fun e =>
        e.2.stageKeys.all Json.isKey && e.2.forcedNext.absentOr Json.isKey)
      (fun _ => True) (checkProcesses c owners processes) := by
  induction processes generalizing owners with
  | nil => exact .pure trivial
  | cons e rest ih =>
    obtain ⟨key, p⟩ := e
    rw [List.all_cons, Bool.and_assoc]
    refine (decides_checkStageKeys c key owners p.stageKeys).bind fun owners' _ => ?_
    dsimp only
    unfold Json.absentOr
    cases p.forcedNext.isFilled with
    | false => exact ih owners'
    | true =>
      exact (Build.Decides.lift (Json.decides_asKey p.forcedNext)).bind fun _ _ =>
        .orReport fun _ => ih owners'

theorem decides_checkOrder (c : Catalog) (seen order : List Json) :
    Build.Decides (order.all Json.isKey) (fun _ => True) (checkOrder c seen order) := by
  induction order generalizing seen with
  | nil => exact .pure trivial
  | cons process rest ih =>
    rw [List.all_cons]
    exact (Build.Decides.lift (Json.decides_asKey process)).bind fun _ _ =>
      .orReport fun _ => .orReport fun _ => ih _

theorem decides_checkRules (c : Catalog) :
    Build.Decides (c.derivedRules.all fun r => r.mapsTo.absentOr Json.isKey) (fun _ => True)
      (checkRules c) := by
  refine .forM fun r _ => ?_
  unfold Json.absentOr
  cases r.mapsTo.isFilled with
  | false => exact .pure trivial
  | true =>
    show Build.Decides r.mapsTo.isKey _ _
    rw [← Bool.and_true r.mapsTo.isKey]
    refine (Build.Decides.lift (Json.decides_asKey r.mapsTo)).bind fun _ _ => ?_
    split
    · exact .warn _
    · exact .pure trivial

theorem decides_checkConditions (c : Catalog) :
    Build.Decides true (fun _ => True) (checkConditions c) := by
  have every : (c.conditions.all fun _ => true) = true := by simp
  rw [← every]
  refine .forM fun p _ => ?_
  split
  · exact .warn _
  · exact .pure trivial

/-- What the check of the references needs: whatever is referred to may serve as a key. -/
def refersWell (c : Catalog) : Bool :=
  (c.stages.all fun s => s.questionIds.all Json.isKey) &&
    ((c.processes.all fun e =>
      e.2.stageKeys.all Json.isKey && e.2.forcedNext.absentOr Json.isKey) &&
    (c.processOrder.all Json.isKey &&
      c.derivedRules.all fun r => r.mapsTo.absentOr Json.isKey))

theorem decides_check (c : Catalog) :
    Build.Decides (refersWell c) (fun _ => True) (check c) := by
  unfold check
  refine Build.Decides.orReport fun _ => (Build.Decides.forM fun s _ => decides_checkStage c s).bind
    fun _ _ => (decides_checkProcesses c [] c.processes).bind fun _ _ =>
    (decides_checkOrder c [] c.processOrder).bind fun _ _ => ?_
  rw [← Bool.and_true (c.derivedRules.all _)]
  exact (decides_checkRules c).bind fun _ _ => decides_checkConditions c

/-! ## The data of a catalog -/

section

variable {α β : Type} {b : Bool} {Q : β → Prop} {v : Json}

/-- The items of a member, taken over one by one.  `q` is looked at in what is taken over. -/
theorem decides_items (object : v.isObject = true) (name : String)
    {f : Nat → Json → Build (Option α)} {p h : Json → Bool} {q : α → Bool}
    (each : ∀ index item, Build.Decides (p item) (fun r => r.toList.all q = h item) (f index item))
    {k : List α → Build β}
    (hk : ∀ rs : List α, rs.all q = (v.memberAt name).walked.all h → Build.Decides b Q (k rs)) :
    Build.Decides (hasItems v name p && b) Q
      ((liftM (listAt v name) : Build (List Json)) >>= fun items =>
        Build.collect f 0 items >>= k) := by
  rw [hasItems, Bool.and_assoc]
  refine (Build.Decides.lift (decides_listAt object name)).bind fun items hitems => ?_
  subst hitems
  exact (decides_collect each 0 _).bind hk

/-- The items of a member, when nothing more is looked at in what is taken over. -/
theorem decides_items_plain (object : v.isObject = true) (name : String)
    {f : Nat → Json → Build (Option α)} {p : Json → Bool}
    (each : ∀ index item, Build.Decides (p item) (fun _ => True) (f index item))
    {k : List α → Build β} (hk : ∀ rs, Build.Decides b Q (k rs)) :
    Build.Decides (hasItems v name p && b) Q
      ((liftM (listAt v name) : Build (List Json)) >>= fun items =>
        Build.collect f 0 items >>= k) := by
  rw [hasItems, Bool.and_assoc]
  refine (Build.Decides.lift (decides_listAt object name)).bind fun items hitems => ?_
  subst hitems
  exact (decides_collect_plain each 0 _).bind fun rs _ => hk rs

end

theorem decides_processesOf {ms : List (String × Json)} (name : String) {stages : List Stage}
    (isKey : ∀ s ∈ stages, s.key.isKey = true) :
    Build.Decides (hasEntries (.obj ms) "processes" processKind)
      (fun processes => (processes.all fun e =>
          e.2.stageKeys.all Json.isKey && e.2.forcedNext.absentOr Json.isKey) =
        refersByKeys (.obj ms) "processes" processKind)
      (processesOf (.obj ms) name stages) := by
  refine (Build.Decides.lift (decides_listAt rfl "processes")).bind fun items hitems => ?_
  unfold refersByKeys
  rw [← hitems]
  cases items with
  | nil =>
    -- the only process collects all stages
    refine .pure ?_
    show ((stages.map (·.key)).all Json.isKey && true && true) = true
    simpa using isKey
  | cons item rest => exact decides_readProcesses [] 0 (item :: rest)

theorem decides_orderOf {ms : List (String × Json)} {processes : Assoc Json Section}
    (isKey : ∀ e ∈ processes, e.1.isKey = true) :
    Outcome.Decides (((Json.obj ms).memberAt "process_order").absentOr Json.isCollection)
      (fun order => order.all Json.isKey =
        ((Json.obj ms).memberAt "process_order").walked.all Json.isKey)
      (orderOf (.obj ms) processes) := by
  rw [← Bool.and_true (((Json.obj ms).memberAt "process_order").absentOr Json.isCollection)]
  refine (decides_listAt rfl "process_order").bind fun items hitems => ?_
  rw [← hitems]
  cases items with
  | nil =>
    refine .ok (List.all_eq_true.2 fun key hkey => ?_)
    obtain ⟨e, he, rfl⟩ := List.mem_map.1 hkey
    exact isKey e he
  | cons item rest => exact .ok rfl

/-- What reading a catalog needs, in the order in which it is looked at. -/
theorem decides_read {ms : List (String × Json)} {data rules : Json} (hdata : data = .obj ms)
    (hrules : rules = rulesOf data) :
    Build.Decides
      ((sectionOf data "meta").isObject && (true && ((sectionOf data "runtime").isObject &&
        ((rules.isObject && (rules.memberAt "defaults").absentOr Json.holdsPairs) &&
        ((rules.isObject && (rules.memberAt "messages").absentOr Json.holdsPairs) &&
        (hasItems rules "module_gating_exempt_stages" Json.isKey &&
        ((data.memberAt "questions").absentOr Json.isCollection &&
        (questionKind.areLegible [] (data.memberAt "questions").walked &&
        ((data.memberAt "stages").absentOr Json.isCollection &&
        (stageKind.areLegible [] (data.memberAt "stages").walked &&
        (refersByKeys data "stages" stageKind &&
        (hasItems data "modules_catalog" Json.isObject &&
        (hasItems rules "derived_rules" Json.isObject &&
        (hasItems rules "computed_vars" isComputed &&
        (hasItems data "production_validations" isValidation &&
        (hasItems data "handoff_triggers" Json.isObject &&
        (hasItems data "attachments_checklist" Json.isObject &&
        (hasEntries data "processes" processKind &&
        ((data.memberAt "process_order").absentOr Json.isCollection && true)))))))))))))))))))
      (fun c => refersWell c = (refersByKeys data "stages" stageKind &&
        (refersByKeys data "processes" processKind &&
        ((data.memberAt "process_order").walked.all Json.isKey &&
          (rules.memberAt "derived_rules").walked.all refersRule))))
      (read data) := by
  subst hdata hrules
  unfold read
  refine (Build.Decides.lift (decides_sectionAt "meta")).bind fun about habout => ?_
  subst habout
  refine (Build.Decides.lift (decides_aboutText _ _ _)).bind fun name hobject => ?_
  refine (Build.Decides.lift (hobject ▸ decides_aboutText _ _ _)).bind fun version _ => ?_
  refine (Build.Decides.lift decides_contractOf).bind fun rules hrules => ?_
  subst hrules
  refine (Build.Decides.lift (decides_namedAt _ _)).bind fun defaults hobject => ?_
  refine (Build.Decides.lift (decides_namedAt _ _)).bind fun messages _ => ?_
  refine (Build.Decides.lift (decides_keysAt hobject _)).bind fun exempt _ => ?_
  refine (Build.Decides.lift (decides_listAt rfl _)).bind fun items hitems => ?_
  subst hitems
  refine ((decides_readQuestions [] 0 _).and_of_run
    fun _ _ _ => filesQuestions_readQuestions ⟨.nil Question.qid, by simp, by simp, by simp⟩).bind
    fun questions hquestions => ?_
  have hqids : ∀ e ∈ questions, e.2.qid.isKey = true := fun e he =>
    (hquestions.2.filed.own e he).symm ▸ hquestions.2.filed.isKey e he
  refine (Build.Decides.lift (decides_listAt rfl _)).bind fun items hitems => ?_
  subst hitems
  refine ((decides_readStages hqids _ _ _ _).and_of_run
    fun _ _ _ => keepsApart_readStages keepsApart_nil).bind fun stages hstages => ?_
  refine (Build.Decides.lift (hstages.1 ▸ decides_placeAll _ _)).bind fun placed _ => ?_
  refine decides_items_plain rfl _ decides_readModule fun modules => ?_
  refine decides_items hobject _ decides_readRule fun rules hrules => ?_
  refine decides_items_plain hobject _ decides_readComputed fun computed => ?_
  refine decides_items_plain rfl _ decides_readValidation fun validations => ?_
  refine decides_items_plain rfl _ decides_readTrigger fun triggers => ?_
  refine decides_items_plain rfl _ decides_readAttachment fun attachments => ?_
  refine ((decides_processesOf _ hstages.2.isKey).and_of_run
    fun _ _ _ => filesSections_processesOf).bind fun processes hprocesses => ?_
  refine (Build.Decides.lift (decides_orderOf hprocesses.2.1.isKey)).bind fun order horder => ?_
  refine .pure ?_
  unfold refersWell
  rw [hstages.1, hprocesses.1, horder, hrules]
  rfl

/-- A catalog is read and its references are checked exactly if nothing that is looked into is of
the wrong kind. -/
theorem decides_build (ms : List (String × Json)) :
    Build.Decides (isLegible (.obj ms)) (fun _ => True) (build (.obj ms)) := by
  have hbuild : Build.Decides (_ && (_ && true)) (fun _ => True) (build (.obj ms)) :=
    (decides_read rfl rfl).bind fun c hc => hc ▸ (decides_check c).bind fun _ _ => .pure trivial
  refine hbuild.of_eq ?_
  rw [Bool.eq_iff_iff]
  simp only [isLegible, areRulesLegible, hasEntries, hasItems, Bool.and_eq_true]
  tauto

/-! ## Answers -/

/-- Loading gives a catalog, or refuses to. -/
def Answers (x : Except Fault (Catalog × List Warning)) : Prop :=
  (∃ r, x = .ok r) ∨ ∃ cause, x = .error (.refused cause)

/-- A text can be read, and if it is an object it is legible; a text that is not in the notation is
refused. -/
def IsLoadable : Except Json.ReadError Json → Prop
  | .ok data => data.isObject = true → isLegible data = true
  | .error .malformed => True
  | .error (.tooManyDigits _) => False

theorem not_answers {e : Fault} (h : e.isRefusal = false) : ¬ Answers (.error e) := by
  rintro (⟨r, hr⟩ | ⟨cause, hr⟩)
  · cases hr
  · cases hr
    cases h

theorem answers_ofJson_iff (data : Json) (source : String) :
    Answers (ofJson data source) ↔ IsLoadable (.ok data) := by
  cases data with
  | obj ms =>
    have hbuild := decides_build ms {}
    rw [ofJson]
    cases hlegible : isLegible (.obj ms) with
    | true =>
      rw [hlegible] at hbuild
      obtain ⟨⟨c, findings⟩, hrun, -⟩ := hbuild
      rw [hrun]
      refine iff_of_true ?_ fun _ => hlegible
      dsimp only
      cases findings.problems with
      | nil => exact .inl ⟨_, rfl⟩
      | cons p ps => exact .inr ⟨_, rfl⟩
    | false =>
      rw [hlegible] at hbuild
      obtain ⟨e, hrun, he⟩ := hbuild
      rw [hrun]
      exact iff_of_false (not_answers he) fun h =>
        Bool.false_ne_true (hlegible.symm.trans (h rfl))
  | _ => exact iff_of_true (.inr ⟨_, rfl⟩) nofun

/-- Loading a text gives a catalog or refuses to exactly if the text has no integer that is too long
to be read and, when it is an object, nothing that is looked into is of the wrong kind.  Loading
data gives a catalog or refuses to exactly under the second condition. -/
theorem answers_iff (source : String) :
    (∀ text, Answers (ofText (some text) source) ↔ IsLoadable (Json.read text)) ∧
      ∀ data, Answers (ofJson data source) ↔ IsLoadable (.ok data) := by
  refine ⟨fun text => ?_, fun data => answers_ofJson_iff data source⟩
  rw [ofText]
  cases Json.read text with
  | ok data => exact answers_ofJson_iff data source
  | error e =>
    cases e with
    | malformed => exact iff_of_true (.inr ⟨_, rfl⟩) trivial
    | tooManyDigits count => exact iff_of_false (not_answers rfl) id

/-- A catalog with a text in the place of a question. -/
def wordy : Json := .obj [("questions", .arr [.str "Q1"]),
  ("stages", .arr [.obj [("stage_key", .str "s"), ("question_ids", .arr [])]])]

/-- A text in the place of a question ends loading with the failure of looking for its members. -/
theorem not_answers_wordy : ¬ ∀ data source, Answers (ofJson data source) := by
  intro h
  have hload : ofJson wordy "catalog" = .error (.noPart "str" "get") := by rfl
  exact not_answers (e := .noPart "str" "get") rfl (hload ▸ h wordy "catalog")

end Catalog

end Questionnaire
