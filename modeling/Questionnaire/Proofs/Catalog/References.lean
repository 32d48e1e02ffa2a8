import Questionnaire.Proofs.Catalog.Processes

/-!
# The references of an accepted catalog

Loading drops entries with a defect, completes others, and checks the references last, over what was
built by then.  A catalog that it accepts has no reference that leads nowhere.

## Main Definitions

* `Catalog.Distinct` - keys of which no two are equal
* `Catalog.Sound` - every reference leads somewhere, and nothing is listed twice

## Main Statements

* `Catalog.sound_of_accepted` - the references of an accepted catalog are sound
* `Catalog.questionsOf_eq` - the questions of a stage are all that it lists
-/

namespace Questionnaire

namespace Catalog

open Build (Keeps)

/-- Keys of which no two are equal. -/
def Distinct (keys : List Json) : Prop := keys.Pairwise fun k l => (k == l) = false

/-- Every reference of a catalog leads somewhere, and nothing is listed twice. -/
structure Sound (c : Catalog) : Prop where
  /-- The keys of stages are distinct. -/
  stages : Distinct (c.stages.map (·.key))
  /-- A question that a stage lists exists, and belongs to a stage. -/
  listed : ∀ stage ∈ c.stages, ∀ qid ∈ stage.questionIds,
    ∃ q, c.question? qid = some q ∧ q.stageKey.isFilled = true
  /-- The type of a question is one of those with a name. -/
  typed : ∀ e ∈ c.questions, DataType.ofName? e.2.dataType.name = some e.2.dataType
  /-- The path of a question starts with a key. -/
  places : ∀ e ∈ c.questions, e.2.HasPlace
  /-- A stage that a process lists exists. -/
  collected : ∀ e ∈ c.processes, ∀ key ∈ e.2.stageKeys, (c.stage? key).isSome = true
  /-- No stage is listed twice among all processes. -/
  owned : Distinct (c.processes.flatMap fun e => e.2.stageKeys)
  /-- A process in the order of routing exists. -/
  routed : ∀ key ∈ c.processOrder, (c.process? key).isSome = true
  /-- No process stands twice in the order of routing. -/
  ordered : Distinct c.processOrder
  /-- A process that is forced after another one exists. -/
  forced : ∀ e ∈ c.processes, e.2.forcedNext.isFilled = true →
    (c.process? e.2.forcedNext).isSome = true

/-! ## Distinct keys -/

theorem distinct_nil : Distinct [] := List.Pairwise.nil

/-- A key that a list does not contain may stand behind it. -/
theorem Distinct.append_one {keys : List Json} (distinct : Distinct keys) {key : Json}
    (isKey : key.isKey = true) (fresh : keys.contains key = false) : Distinct (keys ++ [key]) := by
  refine List.pairwise_append.2 ⟨distinct, List.pairwise_singleton _ _, fun k hk l hl => ?_⟩
  rw [List.mem_singleton.1 hl, ← (Json.isName_of_isKey isKey).symm k]
  exact Bool.eq_false_iff.2 fun h => by
    rw [List.contains_iff_exists_mem_beq.2 ⟨k, hk, h⟩] at fresh
    cases fresh

/-! ## Stages -/

/-- A stage that is read has a filled key that is not taken. -/
theorem readStage_eq_some {questions : Assoc Json Question} {exempt before : List Json}
    {index : Nat} {item : Json} {s s' : Findings} {stage : Stage}
    (h : (readStage questions exempt before index item).run s = .ok (some stage, s')) :
    stage.key.isFilled = true ∧ stage.key.isKey = true ∧ before.contains stage.key = false := by
  unfold readStage at h
  obtain ⟨given, s₁, -, h⟩ := Build.run_bind_eq_ok_iff.1 h
  split at h
  · exact absurd h Build.run_reject_ne_some
  rename_i hfilled
  obtain ⟨key, s₂, hkey, h⟩ := Build.run_bind_eq_ok_iff.1 h
  obtain ⟨hisKey, rfl⟩ := (Json.asKey_eq_ok_iff _ _).1 (Build.run_lift_eq_ok_iff.1 hkey).1
  split at h
  · exact absurd h Build.run_reject_ne_some
  rename_i hfree
  repeat obtain ⟨_, _, -, h⟩ := Build.run_bind_eq_ok_iff.1 h
  cases h
  exact ⟨by simpa using hfilled, hisKey, Bool.eq_false_iff.2 hfree⟩

/-- Stages with distinct filled keys. -/
structure KeepsApart (stages : List Stage) : Prop where
  /-- The keys are distinct. -/
  distinct : Distinct (stages.map (·.key))
  /-- The keys are filled. -/
  filled : ∀ stage ∈ stages, stage.key.isFilled = true
  /-- The keys may serve as keys. -/
  isKey : ∀ stage ∈ stages, stage.key.isKey = true

theorem keepsApart_nil : KeepsApart [] := ⟨distinct_nil, nofun, nofun⟩

theorem keepsApart_readStages {questions : Assoc Json Question} {exempt : List Json}
    {before stages : List Stage} {index : Nat} {items : List Json} {s s' : Findings}
    (apart : KeepsApart before)
    (h : (readStages questions exempt before index items).run s = .ok (stages, s')) :
    KeepsApart stages := by
  induction items generalizing before index s with
  | nil =>
    cases h
    exact apart
  | cons item rest ih =>
    obtain ⟨stage?, s₁, hstage, h⟩ := Build.run_bind_eq_ok_iff.1 h
    cases stage? with
    | none => exact ih apart h
    | some stage =>
      obtain ⟨hfilled, hkey, hfree⟩ := readStage_eq_some hstage
      refine ih ⟨?_, ?_, ?_⟩ h
      · rw [List.map_append]
        exact apart.distinct.append_one hkey hfree
      · exact List.forall_mem_append.2 ⟨apart.filled, List.forall_mem_singleton.2 hfilled⟩
      · exact List.forall_mem_append.2 ⟨apart.isKey, List.forall_mem_singleton.2 hkey⟩

/-! ## Placing questions -/

/-- The question of an identifier, if there is one, belongs to a stage. -/
def Placed (questions : Assoc Json Question) (qid : Json) : Prop :=
  ∀ q, Assoc.valueAt? qid questions = some q → q.stageKey.isFilled = true

/-- A question that is put into a stage belongs to it, and no other question leaves its own. -/
theorem placed_put {questions : Assoc Json Question} {key stageKey : Json} {q : Question}
    (isKey : key.isKey = true) (filled : stageKey.isFilled = true) {qid : Json}
    (h : Placed questions qid ∨ (key == qid) = true) :
    Placed (Assoc.put key { q with stageKey := stageKey } questions) qid := by
  intro q' hq'
  rw [Assoc.valueAt?_put (Json.isName_of_isKey isKey)] at hq'
  split at hq'
  · cases hq'
    exact filled
  · rename_i hne
    exact h.resolve_right hne q' hq'

theorem placed_placeQuestions {stageKey : Json} (filled : stageKey.isFilled = true)
    {ids : List Json} {questions questions' : Assoc Json Question}
    (h : placeQuestions stageKey ids questions = .ok questions') {qid : Json}
    (hqid : Placed questions qid ∨ qid ∈ ids) : Placed questions' qid := by
  induction ids generalizing questions with
  | nil =>
    cases h
    exact hqid.resolve_right List.not_mem_nil
  | cons id rest ih =>
    obtain ⟨key, hkey, h⟩ := Outcome.bind_eq_ok_iff.1 h
    obtain ⟨isKey, rfl⟩ := (Json.asKey_eq_ok_iff _ _).1 hkey
    have here : Placed questions qid ∨ qid ∈ rest ∨ qid = id :=
      hqid.imp_right fun h => (List.mem_cons.1 h).symm
    cases hfound : Assoc.valueAt? id questions with
    | none =>
      rw [hfound] at h
      refine ih h ?_
      rcases here with hplaced | hrest | rfl
      · exact .inl hplaced
      · exact .inr hrest
      · exact .inl fun q hq => by rw [hfound] at hq; cases hq
    | some q =>
      rw [hfound] at h
      refine ih h ?_
      split
      · rename_i hfilled
        rcases here with hplaced | hrest | rfl
        · exact .inl hplaced
        · exact .inr hrest
        · refine .inl fun q' hq' => ?_
          cases hfound.symm.trans hq'
          exact hfilled
      · rcases here with hplaced | hrest | rfl
        · exact .inl (placed_put isKey filled (.inl hplaced))
        · exact .inr hrest
        · exact .inl (placed_put isKey filled (.inr (Json.isName_of_isKey isKey).self))

/-- After all stages were gone through, what they list belongs to a stage. -/
theorem placed_placeAll {stages : List Stage} (filled : ∀ stage ∈ stages, stage.key.isFilled = true)
    {questions questions' : Assoc Json Question} (h : placeAll stages questions = .ok questions')
    {qid : Json} (hqid : Placed questions qid ∨ ∃ stage ∈ stages, qid ∈ stage.questionIds) :
    Placed questions' qid := by
  induction stages generalizing questions with
  | nil =>
    cases h
    exact hqid.resolve_right (by simp)
  | cons stage rest ih =>
    obtain ⟨placed, hplaced, h⟩ := Outcome.bind_eq_ok_iff.1 h
    have hfilled := filled stage List.mem_cons_self
    refine ih (fun s hs => filled s (List.mem_cons_of_mem stage hs)) h ?_
    rcases hqid with hqid | ⟨s, hs, hqid⟩
    · exact .inl (placed_placeQuestions hfilled hplaced (.inl hqid))
    · rcases List.mem_cons.1 hs with rfl | hs
      · exact .inl (placed_placeQuestions hfilled hplaced (.inr hqid))
      · exact .inr ⟨s, hs, hqid⟩

/-- The stages of a catalog are read from its data, and then its questions are put into them. -/
theorem exists_placeAll {data : Json} {c : Catalog} {s s' : Findings}
    (h : (read data).run s = .ok (c, s')) :
    ∃ questions exempt items s₁ s₂, (readStages questions exempt [] 0 items).run s₁ =
      .ok (c.stages, s₂) ∧ placeAll c.stages questions = .ok c.questions := by
  unfold read at h
  -- everything up to the questions stands before the stages
  iterate 10 obtain ⟨_, _, -, h⟩ := Build.run_bind_eq_ok_iff.1 h
  obtain ⟨stages, s₁, hstages, h⟩ := Build.run_bind_eq_ok_iff.1 h
  obtain ⟨placed, s₂, hplaced, h⟩ := Build.run_bind_eq_ok_iff.1 h
  have hrest : c.stages = stages ∧ c.questions = placed := by
    repeat obtain ⟨_, _, -, h⟩ := Build.run_bind_eq_ok_iff.1 h
    cases h
    exact ⟨rfl, rfl⟩
  obtain ⟨rfl, rfl⟩ := hrest
  exact ⟨_, _, _, _, _, hstages, (Build.run_lift_eq_ok_iff.1 hplaced).1⟩

/-! ## Checks -/

section

variable {c : Catalog}

/-- What every step of a list makes sure of when no defect is known after it, all of them do. -/
theorem Build.forall_of_forM {α : Type} {P : α → Prop} {g : α → Build PUnit} {xs : List α}
    (keeps : ∀ x ∈ xs, Keeps (g x))
    (each : ∀ x ∈ xs, ∀ s s', (g x).run s = .ok ((), s') → s'.problems = [] → P x)
    {s s' : Findings} (h : (xs.forM g).run s = .ok ((), s')) (hnone : s'.problems = []) :
    ∀ x ∈ xs, P x := by
  induction xs generalizing s with
  | nil => exact nofun
  | cons x xs ih =>
    obtain ⟨_, s₁, hfirst, hrest⟩ := run_bind_eq_ok_iff.1 h
    have keeps' := fun y hy => keeps y (List.mem_cons_of_mem x hy)
    have hafter := Keeps.forM keeps' s₁ _ s' hrest hnone
    exact List.forall_mem_cons.2 ⟨each x List.mem_cons_self s s₁ hfirst hafter,
      ih keeps' (fun y hy => each y (List.mem_cons_of_mem x hy)) hrest⟩

theorem keeps_checkStage (c : Catalog) (stage : Stage) : Keeps (checkStage c stage) :=
  .forM fun _ _ => (Keeps.lift _).bind fun _ => by
    split
    · exact .report _
    · exact .pure _

/-- A question that a stage lists exists. -/
theorem hasKey_of_checkStage {stage : Stage} {s s' : Findings}
    (h : (checkStage c stage).run s = .ok ((), s')) (hnone : s'.problems = []) :
    ∀ qid ∈ stage.questionIds, Assoc.hasKey qid c.questions = true := by
  refine Build.forall_of_forM (fun qid _ => ?_) (fun qid _ s s' h hnone => ?_) h hnone
  · refine (Keeps.lift _).bind fun _ => ?_
    split
    · exact .report _
    · exact .pure _
  · obtain ⟨key, s₁, hkey, h⟩ := Build.run_bind_eq_ok_iff.1 h
    obtain ⟨-, rfl⟩ := (Json.asKey_eq_ok_iff _ _).1 (Build.run_lift_eq_ok_iff.1 hkey).1
    split at h
    · cases h
      exact absurd hnone (by simp)
    · rename_i hfound
      simpa using hfound

/-- The stages of a process exist, and none of them has an owner or stands there twice. -/
theorem owners_of_checkStageKeys {process : Json} {owners owners' : Assoc Json Json}
    {stages : List Json} {s s' : Findings} (distinct : Distinct (Assoc.keyList owners))
    (h : (checkStageKeys c process owners stages).run s = .ok (owners', s'))
    (hnone : s'.problems = []) :
    (∀ key ∈ stages, (c.stage? key).isSome = true) ∧
      Assoc.keyList owners' = Assoc.keyList owners ++ stages ∧
      Distinct (Assoc.keyList owners') := by
  induction stages generalizing owners s with
  | nil =>
    cases h
    exact ⟨nofun, (List.append_nil _).symm, distinct⟩
  | cons stage rest ih =>
    obtain ⟨key, s₁, hkey, h⟩ := Build.run_bind_eq_ok_iff.1 h
    obtain ⟨isKey, rfl⟩ := (Json.asKey_eq_ok_iff _ _).1 (Build.run_lift_eq_ok_iff.1 hkey).1
    have reported {p : Problem} {s₁ : Findings}
        (h : (Build.report p >>= fun _ => checkStageKeys c process owners rest).run s₁ =
          .ok (owners', s')) : False := by
      obtain ⟨_, s₂, hreport, hrest⟩ := Build.run_bind_eq_ok_iff.1 h
      have hbefore := keeps_checkStageKeys c process owners rest s₂ _ s' hrest hnone
      cases hreport
      exact absurd hbefore (by simp)
    split at h
    · exact (reported h).elim
    · rename_i hknown
      cases howner : Assoc.valueAt? stage owners with
      | some owner =>
        rw [howner] at h
        exact (reported h).elim
      | none =>
        rw [howner] at h
        have fresh : (Assoc.keyList owners).contains stage = false := by
          refine Bool.eq_false_iff.2 fun h => ?_
          obtain ⟨k, hk, hsame⟩ := List.contains_iff_exists_mem_beq.1 h
          obtain ⟨e, he, rfl⟩ := List.mem_map.1 hk
          have hother := Assoc.beq_eq_false_of_hasKey (by rw [Assoc.hasKey, howner]; rfl) he
          rw [(Json.isName_of_isKey isKey).symm, hother] at hsame
          cases hsame
        have hkeys : Assoc.keyList (owners ++ [(stage, process)]) =
            Assoc.keyList owners ++ [stage] := List.map_append
        obtain ⟨hrest, hlist, hdistinct⟩ := ih (hkeys ▸ distinct.append_one isKey fresh) h
        refine ⟨List.forall_mem_cons.2 ⟨?_, hrest⟩, ?_, hdistinct⟩
        · cases hstage : c.stage? stage with
          | none => exact absurd (by rw [hstage]; rfl) hknown
          | some _ => rfl
        · rw [hlist, hkeys, List.append_assoc, List.singleton_append]

theorem owned_of_checkProcesses {owners : Assoc Json Json} {processes : List (Json × Section)}
    {s s' : Findings} (distinct : Distinct (Assoc.keyList owners))
    (h : (checkProcesses c owners processes).run s = .ok ((), s')) (hnone : s'.problems = []) :
    (∀ e ∈ processes, ∀ key ∈ e.2.stageKeys, (c.stage? key).isSome = true) ∧
      Distinct (Assoc.keyList owners ++ processes.flatMap fun e => e.2.stageKeys) := by
  induction processes generalizing owners s with
  | nil => exact ⟨nofun, by simpa using distinct⟩
  | cons e rest ih =>
    obtain ⟨owners', s₁, howners, -, hrest⟩ := checkProcesses_cons h hnone
    have hbefore := keeps_checkProcesses c owners' rest s₁ _ s' hrest hnone
    obtain ⟨hknown, hkeys, hdistinct⟩ := owners_of_checkStageKeys distinct howners hbefore
    obtain ⟨hknown', hdistinct'⟩ := ih hdistinct hrest
    rw [hkeys, List.append_assoc] at hdistinct'
    exact ⟨List.forall_mem_cons.2 ⟨hknown, hknown'⟩, hdistinct'⟩

/-- No process stands twice in the order of routing. -/
theorem distinct_of_checkOrder {seen order : List Json} {s s' : Findings} (distinct : Distinct seen)
    (h : (checkOrder c seen order).run s = .ok ((), s')) (hnone : s'.problems = []) :
    Distinct (seen ++ order) := by
  induction order generalizing seen s with
  | nil => rwa [List.append_nil]
  | cons process rest ih =>
    obtain ⟨key, s₁, hkey, h⟩ := Build.run_bind_eq_ok_iff.1 h
    obtain ⟨isKey, rfl⟩ := (Json.asKey_eq_ok_iff _ _).1 (Build.run_lift_eq_ok_iff.1 hkey).1
    have keeps := keeps_checkOrder c (seen ++ [process]) rest
    obtain ⟨-, h⟩ := Build.unreported (.orReport fun _ => keeps) h hnone
    obtain ⟨hfresh, h⟩ := Build.unreported keeps h hnone
    rw [← List.singleton_append, ← List.append_assoc]
    exact ih (distinct.append_one isKey (Bool.eq_false_iff.2 hfresh)) h

/-- The references of an accepted catalog are sound. -/
theorem sound_of_accepted (accepted : c.Accepted) : c.Sound := by
  obtain ⟨s₀, s₁, s₂, s₃, ⟨hstages, hnone₁⟩, ⟨hprocesses, hnone₂⟩, horder, hnone₃⟩ :=
    exists_checks accepted
  obtain ⟨data, s, s', s'', hread, -, -⟩ := exists_checked accepted
  obtain ⟨questions, exempt, items, s₄, s₅, hstages', hplaced⟩ := exists_placeAll hread
  have apart := keepsApart_readStages keepsApart_nil hstages'
  have hlisted := Build.forall_of_forM (fun stage _ => keeps_checkStage c stage)
    (fun stage _ _ _ => hasKey_of_checkStage) hstages hnone₁
  have hnone : Distinct (Assoc.keyList ([] : Assoc Json Json)) := distinct_nil
  obtain ⟨hcollected, howned⟩ := owned_of_checkProcesses hnone hprocesses hnone₂
  constructor
  case stages => exact apart.distinct
  case listed =>
    intro stage hstage qid hqid
    obtain ⟨q, hq⟩ := Option.isSome_iff_exists.1 (hlisted stage hstage qid hqid)
    exact ⟨q, hq, placed_placeAll apart.filled hplaced (.inr ⟨stage, hstage, hqid⟩) q hq⟩
  case typed =>
    intro e _
    cases e.2.dataType <;> rfl
  case places => exact (filesQuestions_of_accepted accepted).places
  case collected => exact hcollected
  case owned => exact howned
  case routed => exact fun key hkey => (hasKey_of_mem_processOrder accepted hkey).2
  case ordered => exact distinct_of_checkOrder distinct_nil horder hnone₃
  case forced => exact fun e he hforced => (hasKey_of_forcedNext accepted he hforced).2

end

/-- The questions of a stage are all that it lists. -/
theorem Sound.questionsOf_eq {c : Catalog} (sound : c.Sound) {stage : Stage}
    (h : stage ∈ c.stages) :
    (c.questionsOf stage).map some = stage.questionIds.map c.question? := by
  have hlisted := sound.listed stage h
  unfold questionsOf
  generalize stage.questionIds = ids at hlisted ⊢
  induction ids with
  | nil => rfl
  | cons qid rest ih =>
    obtain ⟨⟨q, hq, -⟩, hrest⟩ := List.forall_mem_cons.1 hlisted
    rw [List.filterMap_cons, hq, List.map_cons, List.map_cons, hq, ih hrest]

end Catalog

end Questionnaire
