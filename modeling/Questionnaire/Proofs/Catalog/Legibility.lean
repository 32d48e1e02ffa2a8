import Questionnaire.Proofs.Catalog.Deciding

/-!
# Which entries can be read

Reading reports the defects that it looks for.  It does not look for values of the wrong kind: one
of these ends it with the failure of the operation that met it.  What it meets depends on what it
has come past, since an entry with a defect is not looked into any further.

## Main Definitions

* `Catalog.EntryKind` - a kind of entries that stand under keys of their own
* `Catalog.isLegible` - nothing that loading looks into is of the wrong kind

## Main Statements

* `Catalog.decides_readQuestions`, `Catalog.decides_readStages`, `Catalog.decides_readProcesses` -
  entries under keys of their own are read exactly if they are legible
* `Catalog.decides_collect` - so are entries without keys
-/

namespace Questionnaire

namespace Catalog

/-! ## Legible data -/

/-- A member of an entry, or the member of an older name; the empty text if neither is filled. -/
def eitherOf (item : Json) (name older : String) : Json :=
  (item.memberAt name).filledOr ((item.memberAt older).filledOr emptyText)

/-- A kind of entries that stand under keys of their own.  An entry whose key is not filled or is
taken is not looked into any further. -/
structure EntryKind where
  /-- The key of an entry. -/
  key : Json → Json
  /-- An entry describes something, so its key is taken from then on. -/
  describes : Json → Bool
  /-- What is looked at in an entry is of the right kind. -/
  fits : Json → Bool
  /-- What an entry refers to may serve as keys. -/
  refers : Json → Bool

namespace EntryKind

variable (K : EntryKind)

/-- An entry is taken over, given the keys that are taken. -/
def adds (taken : List Json) (item : Json) : Bool :=
  (K.key item).isFilled && !taken.contains (K.key item) && K.describes item

/-- An entry can be read, given the keys that are taken. -/
def isLegible (taken : List Json) (item : Json) : Bool :=
  item.isObject &&
    (K.key item).absentOr fun key => key.isKey && (taken.contains key || K.fits item)

/-- The keys that are taken after an entry. -/
def after (taken : List Json) (item : Json) : List Json :=
  if K.adds taken item then taken ++ [K.key item] else taken

/-- All entries can be read one after the other. -/
def areLegible : List Json → List Json → Bool
  | _, [] => true
  | taken, item :: rest => K.isLegible taken item && areLegible (K.after taken item) rest

/-- The entries that are taken over. -/
def added : List Json → List Json → List Json
  | _, [] => []
  | taken, item :: rest =>
    if K.adds taken item then item :: added (K.after taken item) rest
    else added (K.after taken item) rest

end EntryKind

/-- What is looked at before the path of a question is such that the path is looked at. -/
def isChecked (item : Json) : Bool :=
  (item.memberAt "field_key").isFilled &&
    (DataType.ofName? (Unicode.lower
      ((item.memberAt "data_type").filledOr (.str DataType.string.name)).display)).isSome &&
    (readRequirement? (item.memberAt "required_mode") (item.memberAt "required_if")).isSome

/-- The segments of the path of a question, if it is a text and its positions can be read. -/
def segmentsAt? (item : Json) : Option (List Path.Segment) :=
  match (item.memberAt "json_path").filledOr (item.memberAt "field_key") with
  | .str path => (Path.parse path).toOption
  | _ => none

/-- The first segment is a key. -/
def startsAtKey : List Path.Segment → Bool
  | .key _ :: _ => true
  | _ => false

/-- The path of a question can be read, and when it starts with a key, so can the rest. -/
def isReadable (item : Json) : Bool :=
  match segmentsAt? item with
  | none => false
  | some segments => !startsAtKey segments ||
    ((item.memberAt "options").absentOr Json.isCollection &&
      ((item.memberAt "prompt_variants").absentOr Json.isObject &&
        (item.memberAt "table_columns").absentOr Json.isCollection))

/-- Questions. -/
def questionKind : EntryKind where
  key item := eitherOf item "qid" "q_id"
  describes item := isChecked item && (segmentsAt? item).any startsAtKey
  fits item := !isChecked item || isReadable item
  refers _ := true

/-- Stages.  The questions that one lists may be absent, but an empty value that is no list is not
enough. -/
def stageKind : EntryKind where
  key item := item.memberAt "stage_key"
  describes _ := true
  fits item :=
    (item.memberAt "question_ids").isNullOrCollection &&
      ((item.memberAt "intro_variants").absentOr Json.isObject &&
        (item.memberAt "completion_checkpoint").absentOr Json.isObject)
  refers item := (item.memberAt "question_ids").walked.all Json.isKey

/-- Processes. -/
def processKind : EntryKind where
  key item := item.memberAt "process_key"
  describes _ := true
  fits item := (item.memberAt "stage_keys").absentOr Json.isCollection
  refers item := (item.memberAt "stage_keys").walked.all Json.isKey &&
    (item.memberAt "forced_next").absentOr Json.isKey

/-- A derived rule, and the question that it maps to may serve as a key. -/
def refersRule (item : Json) : Bool :=
  !((item.memberAt "target_field").isFilled && (item.memberAt "set_when").isFilled) ||
    (eitherOf item "maps_to_qid" "maps_to_q_id").absentOr Json.isKey

/-- A term of a computed variable. -/
def isTerm : Json → Bool
  | .str _ => true
  | t => t.isObject && (!((t.memberAt "fields").isFilled || (t.memberAt "field").isFilled) ||
      ((t.memberAt "fields").absentOr Json.isCollection &&
        ((t.member? "factor").getD (.int 1)).isNumeric))

/-- A computed variable.  Its terms are looked at when its operation is known. -/
def isComputed (item : Json) : Bool :=
  let op := (item.memberAt "op").filledOr (.str ComputedOp.sum.name)
  item.isObject && (item.memberAt "target").absentOr fun _ => op.isKey &&
    ((operationOf? op).isNone || ((item.memberAt "terms").absentOr Json.isCollection &&
      (item.memberAt "terms").walked.all isTerm))

/-- A check.  Its limits are looked at when it has a field. -/
def isValidation (item : Json) : Bool :=
  item.isObject && (item.memberAt "field_key").absentOr fun _ =>
    (item.memberAt "rule").absentOr Json.isObject

/-- A member that is an object with rules; one that is not filled has none. -/
def sectionOf (v : Json) (name : String) : Json := (v.memberAt name).filledOr (.obj [])

/-- The rules of the engine, which may stand under the runtime. -/
def rulesOf (data : Json) : Json :=
  ((sectionOf data "runtime").memberAt "engine_contract").filledOr
    (sectionOf data "engine_contract")

/-- The items of a member, all of them with a property. -/
def hasItems (v : Json) (name : String) (p : Json → Bool) : Bool :=
  (v.memberAt name).absentOr Json.isCollection && (v.memberAt name).walked.all p

/-- The entries of a member, which stand under keys of their own. -/
def hasEntries (v : Json) (name : String) (K : EntryKind) : Bool :=
  (v.memberAt name).absentOr Json.isCollection && K.areLegible [] (v.memberAt name).walked

/-- What the entries of a member refer to may serve as keys. -/
def refersByKeys (v : Json) (name : String) (K : EntryKind) : Bool :=
  (K.added [] (v.memberAt name).walked).all K.refers

/-- Nothing that is looked into while the rules of the engine are read is of the wrong kind. -/
def areRulesLegible (rules : Json) : Bool :=
  rules.isObject && (rules.memberAt "defaults").absentOr Json.holdsPairs &&
    (rules.memberAt "messages").absentOr Json.holdsPairs &&
    hasItems rules "module_gating_exempt_stages" Json.isKey &&
    hasItems rules "derived_rules" Json.isObject && hasItems rules "derived_rules" refersRule &&
    hasItems rules "computed_vars" isComputed

/-- Nothing that loading looks into is of the wrong kind. -/
def isLegible (data : Json) : Bool :=
  (sectionOf data "meta").isObject && (sectionOf data "runtime").isObject &&
    areRulesLegible (rulesOf data) &&
    hasEntries data "questions" questionKind &&
    hasEntries data "stages" stageKind && refersByKeys data "stages" stageKind &&
    hasEntries data "processes" processKind && refersByKeys data "processes" processKind &&
    hasItems data "process_order" Json.isKey &&
    hasItems data "modules_catalog" Json.isObject &&
    hasItems data "production_validations" isValidation &&
    hasItems data "handoff_triggers" Json.isObject &&
    hasItems data "attachments_checklist" Json.isObject

/-! ## Reading entries -/

section

variable {ms : List (String × Json)}

theorem partOrNull_obj (name : String) :
    (Json.obj ms).partOrNull name = .ok ((Json.obj ms).memberAt name) := rfl

theorem textAt_obj (name : String) :
    textAt (.obj ms) name = .ok (((Json.obj ms).memberAt name).filledOr emptyText) := rfl

theorem eitherAt_obj (name older : String) :
    eitherAt (.obj ms) name older = .ok (eitherOf (.obj ms) name older) := rfl

theorem lift_ok_bind {α β : Type} (a : α) (k : α → Build β) :
    ((liftM (Except.ok a : Except Fault α) : Build α) >>= k) = k a := rfl

end

theorem walked_of_not_filled {v : Json} (h : v.isFilled = false) : v.walked = [] := by
  cases v with
  | arr xs => simpa [Json.isFilled, Json.walked] using h
  | obj ms => simpa [Json.isFilled, Json.walked] using h
  | str s => simpa [Json.isFilled, Json.walked] using h
  | _ => rfl

theorem decides_listAt {item : Json} (object : item.isObject = true) (name : String) :
    Outcome.Decides ((item.memberAt name).absentOr Json.isCollection)
      (· = (item.memberAt name).walked) (listAt item name) := by
  cases item with
  | obj ms =>
    rw [listAt, partOrNull_obj, Outcome.ok_bind, Json.absentOr]
    cases hfilled : ((Json.obj ms).memberAt name).isFilled with
    | true => exact Json.decides_itemsOver _
    | false => exact .ok (walked_of_not_filled hfilled).symm
  | _ => cases object

theorem decides_variantsAt {item : Json} (object : item.isObject = true) (name : String) :
    Outcome.Decides ((item.memberAt name).absentOr Json.isObject) (fun _ => True)
      (variantsAt item name) := by
  cases item with
  | obj ms =>
    rw [variantsAt, partOrNull_obj, Outcome.ok_bind]
    cases (Json.obj ms).memberAt name with
    | obj ns =>
      rw [Json.absentOr, Json.isObject, Bool.or_true]
      exact .ok trivial
    | _ => exact Json.decides_unless _ trivial rfl
  | _ => cases object

theorem decides_optionsOf (v : Json) :
    Outcome.Decides (v.absentOr Json.isCollection) (fun _ => True) (optionsOf v) := by
  unfold optionsOf Json.absentOr
  cases v.isFilled with
  | false => exact .ok trivial
  | true =>
    show Outcome.Decides v.isCollection _ _
    rw [← Bool.and_true v.isCollection]
    cases v with
    | str s => exact .ok trivial
    | _ => exact (Json.decides_itemsOver _).bind fun _ _ => .ok trivial

theorem decides_questionOf {ms : List (String × Json)} (qid fieldKey : Json) (dataType : DataType)
    (requirement : Requirement) (path : String) :
    Outcome.Decides (((Json.obj ms).memberAt "options").absentOr Json.isCollection &&
        (((Json.obj ms).memberAt "prompt_variants").absentOr Json.isObject &&
          ((Json.obj ms).memberAt "table_columns").absentOr Json.isCollection))
      (fun q => q.qid = qid) (questionOf (.obj ms) qid fieldKey dataType requirement path) := by
  unfold questionOf
  simp only [partOrNull_obj, textAt_obj, eitherAt_obj, Outcome.ok_bind]
  refine (decides_optionsOf _).bind fun options _ =>
    (decides_variantsAt rfl "prompt_variants").bind fun variants _ => ?_
  rw [← Bool.and_true (((Json.obj ms).memberAt "table_columns").absentOr Json.isCollection)]
  exact (decides_listAt rfl "table_columns").bind fun columns _ => .ok rfl

theorem hasKey_eq_contains {α : Type} {k : Json} (isKey : k.isKey = true) (m : Assoc Json α) :
    Assoc.hasKey k m = (Assoc.keyList m).contains k := by
  induction m with
  | nil => rfl
  | cons e m ih =>
    unfold Assoc.hasKey at ih ⊢
    rw [Assoc.valueAt?_cons, Assoc.keyList, List.map_cons, List.contains_cons,
      (Json.isName_of_isKey isKey).symm e.1]
    cases e.1 == k with
    | true => rfl
    | false => exact ih

/-- An entry is read as its kind asks for, under the key that it adds; `refers` tells of what is
read whether what it refers to may serve as keys. -/
def ReadsEntry (K : EntryKind) {α : Type} (key : α → Json) (refers : α → Bool) (taken : List Json)
    (item : Json) (x : Build (Option α)) : Prop :=
  Build.Decides (K.isLegible taken item)
    (fun r => (r.map key = bif K.adds taken item then some (K.key item) else none) ∧
      ∀ a ∈ r, refers a = K.refers item) x

/-- Entries of all kinds are read alike up to their keys. -/
theorem ReadsEntry.of_body {K : EntryKind} {α : Type} {key : α → Json} {refers : α → Bool}
    {taken : List Json} {item : Json} (object : item.isObject = true) {p : Problem}
    {p' : Json → Problem} {isTaken : Json → Bool}
    (htaken : ∀ k : Json, k.isKey = true → isTaken k = taken.contains k)
    {body : Json → Build (Option α)}
    (hbody : Build.Decides (K.fits item)
      (fun r => (r.map key = bif K.describes item then some (K.key item) else none) ∧
        ∀ a ∈ r, refers a = K.refers item) (body (K.key item))) :
    ReadsEntry K key refers taken item
      (if (!(K.key item).isFilled) = true then Build.reject p
        else (liftM (K.key item).asKey : Build Json) >>= fun k =>
          if isTaken k = true then Build.reject (p' k) else body k) := by
  unfold ReadsEntry EntryKind.isLegible EntryKind.adds Json.absentOr
  rw [object, Bool.true_and]
  cases (K.key item).isFilled with
  | false => exact .reject p ⟨rfl, nofun⟩
  | true =>
    refine Build.Decides.bind (.lift (b := (K.key item).isKey) (P := fun k =>
      k = K.key item ∧ isTaken k = taken.contains k) ?_) fun k hk => ?_
    · have hgives := Json.decides_asKey (K.key item)
      cases hkey : (K.key item).isKey with
      | false => rwa [hkey] at hgives
      | true =>
        rw [hkey] at hgives
        refine hgives.imp fun k hk => ?_
        subst hk
        exact ⟨rfl, htaken _ hkey⟩
    · obtain ⟨rfl, htaken⟩ := hk
      rw [htaken]
      cases taken.contains (K.key item) with
      | true => exact .reject _ ⟨rfl, nofun⟩
      | false => exact hbody

/-- The path of a question and what stands behind it. -/
theorem decides_path {ms : List (String × Json)} (qid : Json) (dataType : DataType)
    (requirement : Requirement) (p : String → Problem) :
    Build.Decides (isReadable (.obj ms))
      (fun r => r.map Question.qid =
        bif (segmentsAt? (.obj ms)).any startsAtKey then some qid else none)
      (do
        let path ← liftM (pathText (((Json.obj ms).memberAt "json_path").filledOr
          ((Json.obj ms).memberAt "field_key")))
        if (!(← liftM (startsWithKey path))) = true then Build.reject (p path)
        else do
          let q ← liftM (questionOf (.obj ms) qid ((Json.obj ms).memberAt "field_key") dataType
            requirement path)
          pure (some q)) := by
  unfold isReadable segmentsAt?
  cases ((Json.obj ms).memberAt "json_path").filledOr ((Json.obj ms).memberAt "field_key") with
  | str path =>
    rw [pathText, lift_ok_bind, startsWithKey]
    dsimp only
    cases hparse : Path.parse path with
    | error e => exact fun s => ⟨_, rfl, Path.isRefusal_of_parse hparse⟩
    | ok segments =>
      have hquestion : Build.Decides (_ && true) (fun r => r.map Question.qid = some qid)
          ((liftM (questionOf (.obj ms) qid ((Json.obj ms).memberAt "field_key") dataType
            requirement path) : Build Question) >>= fun q => pure (some q)) :=
        (Build.Decides.lift (decides_questionOf qid _ dataType requirement path)).bind
          fun q hq => .pure (congrArg some hq)
      rw [Bool.and_true] at hquestion
      rcases segments with _ | ⟨name | n, rest⟩
      · exact .reject _ rfl
      · exact hquestion
      · exact .reject _ rfl
  | _ => exact fun s => ⟨_, rfl, rfl⟩

theorem readsEntry_readQuestion (before : Assoc Json Question) (index : Nat) (item : Json) :
    ReadsEntry questionKind Question.qid (fun _ => true) (Assoc.keyList before) item
      (readQuestion before index item) := by
  cases item with
  | obj ms =>
    unfold readQuestion
    simp only [partOrNull_obj, eitherAt_obj, lift_ok_bind]
    refine ReadsEntry.of_body rfl
      (fun k isKey => hasKey_eq_contains isKey before) ?_
    -- an entry that is not checked can be read, and describes nothing
    have unchecked (h : isChecked (.obj ms) = false) (p : Problem) :
        Build.Decides (questionKind.fits (.obj ms))
          (fun r : Option Question => (r.map Question.qid =
            bif questionKind.describes (.obj ms) then some (questionKind.key (.obj ms))
            else none) ∧ ∀ a ∈ r, true = questionKind.refers (.obj ms)) (Build.reject p) := by
      dsimp only [questionKind]
      rw [h]
      exact .reject p ⟨rfl, nofun⟩
    split
    · rename_i hfield
      exact unchecked (by simp_all [isChecked]) _
    · rename_i hfield
      split
      · rename_i htype
        exact unchecked (by simp [isChecked, htype]) _
      · rename_i dataType htype
        split
        · rename_i hrequirement
          exact unchecked (by simp [isChecked, hrequirement]) _
        · rename_i requirement hrequirement
          have checked : isChecked (.obj ms) = true := by
            simp_all [isChecked]
          dsimp only [questionKind]
          rw [checked]
          exact (decides_path _ dataType requirement _).imp fun r hr => ⟨hr, fun _ _ => rfl⟩
  | _ => exact fun s => ⟨_, rfl, rfl⟩

theorem decides_questionIdsOf {questions : Assoc Json Question}
    (isKey : ∀ e ∈ questions, e.2.qid.isKey = true) (key : Json) {ms : List (String × Json)} :
    Outcome.Decides ((Json.obj ms).memberAt "question_ids").isNullOrCollection
      (fun ids => ids.all Json.isKey =
        ((Json.obj ms).memberAt "question_ids").walked.all Json.isKey)
      (questionIdsOf questions key (.obj ms)) := by
  rw [questionIdsOf, partOrNull_obj, Outcome.ok_bind]
  cases (Json.obj ms).memberAt "question_ids" with
  | null =>
    -- the questions that name the stage stand under keys
    refine .ok (List.all_eq_true.2 fun qid hqid => ?_)
    obtain ⟨e, he, rfl⟩ := List.mem_map.1 hqid
    exact isKey e (List.mem_of_mem_filter he)
  | arr _ | obj _ | str _ => exact .ok rfl
  | _ => exact .error rfl

theorem decides_checkpointOf {ms : List (String × Json)} :
    Outcome.Decides (((Json.obj ms).memberAt "completion_checkpoint").absentOr Json.isObject)
      (fun _ => True) (checkpointOf (.obj ms)) := by
  rw [checkpointOf, partOrNull_obj, Outcome.ok_bind]
  dsimp only
  unfold Json.absentOr Json.filledOr
  cases hfilled : ((Json.obj ms).memberAt "completion_checkpoint").isFilled with
  | false => exact .ok trivial
  | true =>
    cases (Json.obj ms).memberAt "completion_checkpoint" with
    | obj ns => exact .ok trivial
    | _ => exact .error rfl

theorem readsEntry_readStage {questions : Assoc Json Question}
    (isKey : ∀ e ∈ questions, e.2.qid.isKey = true) (exempt taken : List Json) (index : Nat)
    (item : Json) :
    ReadsEntry stageKind Stage.key (fun s => s.questionIds.all Json.isKey) taken item
      (readStage questions exempt taken index item) := by
  cases item with
  | obj ms =>
    unfold readStage
    simp only [partOrNull_obj, textAt_obj, lift_ok_bind]
    refine ReadsEntry.of_body rfl (fun _ _ => rfl) ?_
    refine (Build.Decides.lift (decides_questionIdsOf isKey _)).bind fun ids hids =>
      (Build.Decides.lift (decides_variantsAt rfl "intro_variants")).bind fun variants _ => ?_
    rw [← Bool.and_true (((Json.obj ms).memberAt "completion_checkpoint").absentOr Json.isObject)]
    refine (Build.Decides.lift decides_checkpointOf).bind fun checkpoint _ => .pure ⟨rfl, ?_⟩
    intro stage hstage
    cases hstage
    exact hids
  | _ => exact fun s => ⟨_, rfl, rfl⟩

theorem absentOr_filledOr (p : Json → Bool) (v : Json) :
    (v.filledOr emptyText).absentOr p = v.absentOr p := by
  unfold Json.absentOr Json.filledOr
  cases hfilled : v.isFilled with
  | false => rfl
  | true => rw [if_pos rfl, hfilled]

theorem readsEntry_readProcess (before : Assoc Json Section) (index : Nat) (item : Json) :
    ReadsEntry processKind Section.key
      (fun p => p.stageKeys.all Json.isKey && p.forcedNext.absentOr Json.isKey)
      (Assoc.keyList before) item (readProcess before index item) := by
  cases item with
  | obj ms =>
    unfold readProcess
    simp only [partOrNull_obj, textAt_obj, lift_ok_bind]
    refine ReadsEntry.of_body rfl
      (fun k isKey => hasKey_eq_contains isKey before) ?_
    dsimp only [processKind]
    rw [← Bool.and_true (((Json.obj ms).memberAt "stage_keys").absentOr Json.isCollection)]
    refine (Build.Decides.lift (decides_listAt rfl "stage_keys")).bind fun keys hkeys =>
      .pure ⟨rfl, ?_⟩
    intro p hp
    cases hp
    dsimp only
    rw [hkeys, absentOr_filledOr]
  | _ => exact fun s => ⟨_, rfl, rfl⟩

/-! ## Reading lists of entries -/

section

variable {K : EntryKind} {α : Type} {key : α → Json} {refers : α → Bool} {taken : List Json}
  {item : Json} {r : Option α}

/-- After an entry, the keys that are taken are those of what was read so far. -/
theorem after_eq (h : r.map key = bif K.adds taken item then some (K.key item) else none) :
    K.after taken item = taken ++ (r.map key).toList := by
  rw [h, EntryKind.after]
  cases K.adds taken item with
  | true => rfl
  | false => exact (List.append_nil taken).symm

/-- An entry that was read is one of those that are added. -/
theorem all_added_cons (h : r.map key = bif K.adds taken item then some (K.key item) else none)
    (hrefers : ∀ a ∈ r, refers a = K.refers item) (rest : List Json) :
    (K.added taken (item :: rest)).all K.refers =
      (r.toList.all refers && (K.added (K.after taken item) rest).all K.refers) := by
  rw [EntryKind.added]
  cases hadds : K.adds taken item with
  | true =>
    rw [hadds, cond_true] at h
    obtain ⟨a, rfl, -⟩ := Option.map_eq_some_iff.1 h
    rw [if_pos rfl, List.all_cons, ← hrefers a rfl, Option.toList_some, List.all_cons,
      List.all_nil, Bool.and_true]
  | false =>
    rw [hadds, cond_false, Option.map_eq_none_iff] at h
    subst h
    rfl

end

theorem decides_readQuestions (before : Assoc Json Question) (index : Nat) (items : List Json) :
    Build.Decides (questionKind.areLegible (Assoc.keyList before) items) (fun _ => True)
      (readQuestions before index items) := by
  induction items generalizing before index with
  | nil => exact .pure trivial
  | cons item rest ih =>
    refine (readsEntry_readQuestion before index item).bind fun r hr => ?_
    rw [after_eq hr.1]
    cases r with
    | none =>
      rw [Option.map_none, Option.toList_none, List.append_nil]
      exact ih before (index + 1)
    | some q =>
      have hkeys : Assoc.keyList (before ++ [(q.qid, q)]) = Assoc.keyList before ++ [q.qid] :=
        List.map_append
      exact hkeys ▸ ih (before ++ [(q.qid, q)]) (index + 1)

theorem decides_readStages {questions : Assoc Json Question}
    (isKey : ∀ e ∈ questions, e.2.qid.isKey = true) (exempt : List Json) (before : List Stage)
    (index : Nat) (items : List Json) :
    Build.Decides (stageKind.areLegible (before.map (·.key)) items)
      (fun stages => (stages.all fun s => s.questionIds.all Json.isKey) =
        ((before.all fun s => s.questionIds.all Json.isKey) &&
          (stageKind.added (before.map (·.key)) items).all stageKind.refers))
      (readStages questions exempt before index items) := by
  induction items generalizing before index with
  | nil => exact .pure (by simp [EntryKind.added])
  | cons item rest ih =>
    refine (readsEntry_readStage isKey exempt _ index item).bind fun r hr => ?_
    rw [all_added_cons hr.1 hr.2, after_eq hr.1]
    cases r with
    | none =>
      rw [Option.map_none, Option.toList_none, List.append_nil]
      exact ih before (index + 1)
    | some stage =>
      have hread := ih (before ++ [stage]) (index + 1)
      rw [List.map_append] at hread
      refine hread.imp fun stages hstages => hstages.trans ?_
      rw [List.all_append, Bool.and_assoc]
      rfl

theorem decides_readProcesses (before : Assoc Json Section) (index : Nat) (items : List Json) :
    Build.Decides (processKind.areLegible (Assoc.keyList before) items)
      (fun processes => (processes.all fun e =>
          e.2.stageKeys.all Json.isKey && e.2.forcedNext.absentOr Json.isKey) =
        ((before.all fun e =>
          e.2.stageKeys.all Json.isKey && e.2.forcedNext.absentOr Json.isKey) &&
          (processKind.added (Assoc.keyList before) items).all processKind.refers))
      (readProcesses before index items) := by
  induction items generalizing before index with
  | nil => exact .pure (by simp [EntryKind.added])
  | cons item rest ih =>
    refine (readsEntry_readProcess before index item).bind fun r hr => ?_
    rw [all_added_cons hr.1 hr.2, after_eq hr.1]
    cases r with
    | none =>
      rw [Option.map_none, Option.toList_none, List.append_nil]
      exact ih before (index + 1)
    | some p =>
      have hread := ih (before ++ [(p.key, p)]) (index + 1)
      have hkeys : Assoc.keyList (before ++ [(p.key, p)]) = Assoc.keyList before ++ [p.key] :=
        List.map_append
      rw [hkeys] at hread
      refine hread.imp fun processes hprocesses => hprocesses.trans ?_
      rw [List.all_append, Bool.and_assoc]
      rfl

/-- The results of a list of entries.  `q` is looked at in each of them. -/
theorem decides_collect {α : Type} {f : Nat → Json → Build (Option α)} {p h : Json → Bool}
    {q : α → Bool}
    (each : ∀ index item, Build.Decides (p item) (fun r => r.toList.all q = h item) (f index item))
    (index : Nat) (items : List Json) :
    Build.Decides (items.all p) (fun rs => rs.all q = items.all h)
      (Build.collect f index items) := by
  induction items generalizing index with
  | nil => exact .pure rfl
  | cons item rest ih =>
    rw [List.all_cons, List.all_cons, ← Bool.and_true (rest.all p)]
    refine (each index item).bind fun r hr => (ih (index + 1)).bind fun rs hrs => .pure ?_
    rw [List.all_append, hr, hrs]

theorem decides_collect_plain {α : Type} {f : Nat → Json → Build (Option α)} {p : Json → Bool}
    (each : ∀ index item, Build.Decides (p item) (fun _ => True) (f index item)) (index : Nat)
    (items : List Json) :
    Build.Decides (items.all p) (fun _ => True) (Build.collect f index items) := by
  refine (decides_collect (q := fun _ => true) (h := fun _ => true) (fun index item => ?_) index
    items).imp fun _ _ => trivial
  exact (each index item).imp fun r _ => by cases r <;> rfl

theorem decides_readModule (index : Nat) (item : Json) :
    Build.Decides item.isObject (fun _ => True) (readModule index item) := by
  cases item with
  | obj ms =>
    unfold readModule
    simp only [partOrNull_obj, textAt_obj, lift_ok_bind]
    split
    · exact .reject _ trivial
    · exact .pure trivial
  | _ => exact fun s => ⟨_, rfl, rfl⟩

theorem decides_readTrigger (index : Nat) (item : Json) :
    Build.Decides item.isObject (fun _ => True) (readTrigger index item) := by
  cases item with
  | obj ms =>
    unfold readTrigger
    simp only [partOrNull_obj, textAt_obj, lift_ok_bind]
    split
    · exact .reject _ trivial
    · exact .pure trivial
  | _ => exact fun s => ⟨_, rfl, rfl⟩

theorem decides_readAttachment (index : Nat) (item : Json) :
    Build.Decides item.isObject (fun _ => True) (readAttachment index item) := by
  cases item with
  | obj ms =>
    unfold readAttachment
    simp only [partOrNull_obj, textAt_obj, eitherAt_obj, lift_ok_bind]
    split
    · exact .pure trivial
    · exact (Build.Decides.warn _).bind fun _ _ => .pure trivial
  | _ => exact fun s => ⟨_, rfl, rfl⟩

theorem decides_readRule (index : Nat) (item : Json) :
    Build.Decides item.isObject (fun r => (r.toList.all fun a => a.mapsTo.absentOr Json.isKey) =
      refersRule item) (readRule index item) := by
  cases item with
  | obj ms =>
    unfold readRule refersRule
    simp only [partOrNull_obj, eitherAt_obj, lift_ok_bind]
    cases ((Json.obj ms).memberAt "target_field").isFilled &&
      ((Json.obj ms).memberAt "set_when").isFilled with
    | false => exact .reject _ rfl
    | true =>
      refine .pure ?_
      rw [Option.toList_some, List.all_cons, List.all_nil, Bool.and_true]
      rfl
  | _ => exact fun s => ⟨_, rfl, rfl⟩

theorem decides_termFields {ms : List (String × Json)} :
    Outcome.Decides (((Json.obj ms).memberAt "fields").absentOr Json.isCollection)
      (fun _ => True) (termFields (.obj ms)) := by
  rw [termFields, partOrNull_obj, Outcome.ok_bind]
  unfold Json.absentOr
  cases ((Json.obj ms).memberAt "fields").isFilled with
  | false => exact .ok trivial
  | true => exact (Json.decides_itemsOver _).imp fun _ _ => trivial

theorem decides_asFloat (v : Json) :
    Outcome.Decides v.isNumeric (fun _ => True) v.asFloat := by
  unfold Json.isNumeric
  cases hread : v.asFloat with
  | error e => exact .error (Json.isRefusal_of_asFloat hread)
  | ok x => exact .ok trivial

theorem decides_readTerm (target : Json) (index : Nat) (term : Json) :
    Build.Decides (isTerm term) (fun _ => True) (readTerm target index term) := by
  cases term with
  | str s => exact .pure trivial
  | obj ms =>
    unfold readTerm isTerm
    simp only [partOrNull_obj, lift_ok_bind, Json.isObject, Bool.true_and]
    cases ((Json.obj ms).memberAt "fields").isFilled ||
      ((Json.obj ms).memberAt "field").isFilled with
    | false => exact .reject _ trivial
    | true =>
      refine Build.Decides.bind (.lift decides_termFields) fun fields _ => ?_
      rw [← Bool.and_true (((Json.obj ms).member? "factor").getD (.int 1)).isNumeric]
      exact Build.Decides.bind (.lift (decides_asFloat _)) fun factor _ => .pure trivial
  | _ => exact fun s => ⟨_, rfl, rfl⟩

theorem decides_readComputed (index : Nat) (item : Json) :
    Build.Decides (isComputed item) (fun _ => True) (readComputed index item) := by
  cases item with
  | obj ms =>
    unfold readComputed isComputed
    simp only [partOrNull_obj, lift_ok_bind, Json.isObject, Bool.true_and]
    rw [Json.absentOr]
    cases ((Json.obj ms).memberAt "target").isFilled with
    | false => exact .reject _ trivial
    | true =>
      refine Build.Decides.bind (.lift (Json.decides_asKey _)) fun op hop => ?_
      rw [hop]
      cases operationOf? (((Json.obj ms).memberAt "op").filledOr (.str ComputedOp.sum.name)) with
      | none => exact .reject _ trivial
      | some operation =>
        refine Build.Decides.bind (.lift (decides_listAt rfl "terms")) fun terms hterms => ?_
        rw [hterms, ← Bool.and_true (((Json.obj ms).memberAt "terms").walked.all isTerm)]
        exact (decides_collect_plain (decides_readTerm _) 0 _).bind fun _ _ => .pure trivial
  | _ => exact fun s => ⟨_, rfl, rfl⟩

theorem decides_readValidation (index : Nat) (item : Json) :
    Build.Decides (isValidation item) (fun _ => True) (readValidation index item) := by
  cases item with
  | obj ms =>
    unfold readValidation isValidation Json.absentOr
    simp only [partOrNull_obj, textAt_obj, lift_ok_bind]
    cases ((Json.obj ms).memberAt "field_key").isFilled with
    | false => exact .reject _ trivial
    | true =>
      unfold Json.filledOr
      cases ((Json.obj ms).memberAt "rule").isFilled with
      | false => exact .pure trivial
      | true =>
        cases (Json.obj ms).memberAt "rule" with
        | obj ns => exact .pure trivial
        | _ => exact fun s => ⟨_, rfl, rfl⟩
  | _ => exact fun s => ⟨_, rfl, rfl⟩

end Catalog

end Questionnaire
