import Questionnaire.Proofs.Routing
import Questionnaire.Proofs.State.Derived
import Questionnaire.Proofs.Store.Scopes
import Questionnaire.Proofs.Turn.Conversation
import Questionnaire.Proofs.Turn.Patch

/-!
# Progress through the sections

A section is recorded as completed in two places, in the values of the flow and in the history.  In
a conversation the two agree, no section is recorded twice, and none is taken back.

## Main Definitions

* `MemoryStore.finished` - the sections in the history of a user
* `Flow.Progress` - the two records agree and hold distinct sections of the catalog
* `Flow.Unfinished` - the section of a pointer is not completed

## Main Statements

* `Flow.Progress.completing` - completing one more section
* `Flow.advances_of_processTurn` - one turn
* `Flow.completed_once` - a whole conversation
-/

namespace Questionnaire

/-- The sections in the history of a user, in the order of their completion. -/
def MemoryStore.finished (m : MemoryStore) (user : String) : List Json :=
  (m.records user).map (·.sectionKey)

namespace Flow

open Bookkeeping (flowScope)

/-- The record of completed sections agrees with the history, and both hold distinct sections of the
catalog. -/
structure Progress (c : Catalog) (m : MemoryStore) (user : String) : Prop where
  /-- Every scope holds its values under distinct scalars. -/
  regular : (m.scopes user).Regular
  /-- Completed sections are recorded in one scope. -/
  only : (m.scopes user).OnlyIn flowScope Bookkeeping.completed
  /-- The record holds what the history holds. -/
  recorded : (m.own? user flowScope Bookkeeping.completed).getD (.arr []) = .arr (m.finished user)
  /-- No section stands in the history twice. -/
  distinct : (m.finished user).Nodup
  /-- The history holds sections of the catalog. -/
  known : ∀ key ∈ m.finished user, (c.process? key).isSome = true

/-- The section where the pointer of a user stands is not completed. -/
def Unfinished (m : MemoryStore) (user : String) : Prop :=
  ∀ p, m.pointer? user = some p → p.isTerminal = false → p.sectionKey ∉ m.completed user

variable {c : Catalog} {m : MemoryStore} {user : String}

theorem progress_empty (c : Catalog) (user : String) : Progress c {} user where
  regular e he := by cases he
  only e he := by cases he
  recorded := rfl
  distinct := List.nodup_nil
  known key hkey := by cases hkey

namespace Progress

/-- Completed sections are read back as the history holds them. -/
theorem completed_eq (accepted : c.Accepted) (trimmed : c.HasTrimmedKeys)
    (progress : Progress c m user) : m.completed user = m.finished user := by
  have hread : Assoc.valueAt? Bookkeeping.completed ((m.scopes user).read flowScope) =
      m.own? user flowScope Bookkeeping.completed :=
    progress.regular.valueAt?_read_of_onlyIn progress.only
  have hrecorded := progress.recorded
  unfold MemoryStore.completed
  cases hown : m.own? user flowScope Bookkeeping.completed with
  | none =>
    rw [hown] at hread hrecorded
    rw [Routing.completed_of_unrecorded hread]
    exact Json.arr.inj hrecorded
  | some v =>
    rw [hown] at hread hrecorded
    rw [Option.getD_some] at hrecorded
    rw [hrecorded] at hread
    exact Routing.completed_of_recorded hread
      (fun key hkey => Routing.isLabel_of_process? accepted trimmed (progress.known key hkey))
      progress.distinct

/-- A patch that does not write the record leaves it alone. -/
theorem patched (progress : Progress c m user) {scope : Json} (hscope : scope.isKey = true)
    {patch : Fields}
    (hpatch : ∀ e ∈ patch, e.1.isKey = true ∧ (e.1 == Bookkeeping.completed) = false) :
    Progress c (m.patched user scope patch) user ∧
      (m.patched user scope patch).finished user = m.finished user := by
  have hscopes := MemoryStore.scopes_patched_self m user scope patch
  have hkeys : ∀ e ∈ patch, e.1.isKey = true := fun e he => (hpatch e he).1
  have hfree : ∀ e ∈ patch, (e.1 == Bookkeeping.completed) = false := fun e he => (hpatch e he).2
  refine ⟨⟨?_, ?_, ?_, progress.distinct, progress.known⟩, rfl⟩
  · rw [hscopes]
    exact progress.regular.write hkeys
  · rw [hscopes]
    exact progress.only.write hscope hkeys fun _ => hfree
  · have names : ∀ e ∈ patch, Assoc.IsName e.1 := fun e he => Json.isName_of_isKey (hkeys e he)
    rw [MemoryStore.own?_patched_of_forall_ne hscope names hfree]
    exact progress.recorded

theorem completed_patched (accepted : c.Accepted) (trimmed : c.HasTrimmedKeys)
    (progress : Progress c m user) {scope : Json} (hscope : scope.isKey = true) {patch : Fields}
    (hpatch : ∀ e ∈ patch, e.1.isKey = true ∧ (e.1 == Bookkeeping.completed) = false) :
    (m.patched user scope patch).completed user = m.completed user := by
  obtain ⟨hpatched, hfinished⟩ := progress.patched hscope hpatch
  rw [hpatched.completed_eq accepted trimmed, hfinished, progress.completed_eq accepted trimmed]

/-- Completing a section of the catalog that is not completed adds it to both records. -/
theorem completing (accepted : c.Accepted) (trimmed : c.HasTrimmedKeys)
    (progress : Progress c m user) {section_ : Json} (known : (c.process? section_).isSome = true)
    (fresh : section_ ∉ m.completed user) {r : CompletionRecord} (hr : r.sectionKey = section_) :
    Progress c (m.completing user section_ r) user ∧
      (m.completing user section_ r).finished user = m.finished user ++ [section_] := by
  have heq := progress.completed_eq accepted trimmed
  have hdone : Routing.complete (m.completed user) section_ = m.finished user ++ [section_] := by
    rw [Routing.complete_of_not_mem (Routing.isLabel_of_process? accepted trimmed known) fresh, heq]
  have hfinished :
      (m.completing user section_ r).finished user = m.finished user ++ [section_] := by
    unfold MemoryStore.finished
    rw [records_completing, List.map_append, List.map_singleton, hr]
  have hscopes : (m.completing user section_ r).scopes user = (m.scopes user).write flowScope
      [(Bookkeeping.completed, .arr (m.finished user ++ [section_]))] := by
    rw [MemoryStore.completing, MemoryStore.scopes_appendCompletion,
      MemoryStore.scopes_patched_self, hdone]
  have hkeys : ∀ e ∈ [(Bookkeeping.completed, Json.arr (m.finished user ++ [section_]))],
      e.1.isKey = true := by
    intro e he
    rw [List.mem_singleton.1 he]
    rfl
  refine ⟨⟨?_, ?_, ?_, ?_, ?_⟩, hfinished⟩
  · rw [hscopes]
    exact progress.regular.write hkeys
  · rw [hscopes]
    exact progress.only.write isKey_flowScope hkeys fun h => by cases h
  · have hown : (m.completing user section_ r).own? user flowScope Bookkeeping.completed =
        some (.arr (m.finished user ++ [section_])) := by
      show (m.patched user flowScope _).own? user flowScope Bookkeeping.completed = _
      rw [hdone, MemoryStore.own?_patched isKey_flowScope
        fun e he => Json.isName_of_isKey (hkeys e he),
        if_pos (Json.isName_of_isKey isKey_flowScope).self]
      rfl
    rw [hown, hfinished, Option.getD_some]
  · rw [hfinished]
    refine List.nodup_append.2 ⟨progress.distinct, by simp, fun a ha b hb hab => fresh ?_⟩
    rw [heq, ← List.mem_singleton.1 hb, ← hab]
    exact ha
  · rw [hfinished]
    intro key hkey
    rcases List.mem_append.1 hkey with hkey | hkey
    · exact progress.known key hkey
    · rw [List.mem_singleton.1 hkey]
      exact known

end Progress

/-! ## One turn -/

/-- What a turn of a user makes of the progress. -/
structure Advances (c : Catalog) (m m' : MemoryStore) (user : String) : Prop where
  /-- The two records agree. -/
  progress : Progress c m' user
  /-- The pointer does not stand in a completed section. -/
  unfinished : Unfinished m' user
  /-- No section is taken back. -/
  grows : m.finished user <+: m'.finished user

variable {f : Flow} {channel : Json} {lead : String} {note : TurnNote} {w w' : World MemoryStore}
  {r : TurnResult}

/-- A section that is entered is one of the catalog, and not completed. -/
theorem fresh_of_entry (accepted : f.catalog.Accepted) (trimmed : f.catalog.HasTrimmedKeys)
    {left attempts : Nat} {section_ : Json} {e : Entry}
    (h : f.entry m user channel left attempts section_ = .ok e) :
    (f.catalog.process? section_).isSome = true ∧ section_ ∉ m.completed user := by
  obtain ⟨process, hadmitted, -⟩ := Outcome.bind_eq_ok_iff.1 h
  obtain ⟨rest, rfl⟩ := f.ne_zero_of_admitted user hadmitted
  obtain ⟨hprocess, hfree⟩ := (f.admitted_eq_ok_iff user).1 hadmitted
  have hknown : (f.catalog.process? section_).isSome = true := by
    rw [hprocess]
    rfl
  refine ⟨hknown, fun hmem => ?_⟩
  have label := Routing.isLabel_of_process? accepted trimmed hknown
  rw [(Routing.contains_iff_of_isLabel label).2 hmem] at hfree
  cases hfree

/-- A pointer that does not stand in a completed section may be saved. -/
theorem advances_savePointer {c : Catalog} {p : Pointer} (progress : Progress c m user)
    (h : p.isTerminal = false → p.sectionKey ∉ m.completed user) :
    Advances c m (m.savePointer user p) user := by
  refine ⟨⟨progress.regular, progress.only, progress.recorded, progress.distinct,
    progress.known⟩, fun p' hp' hactive => ?_, List.prefix_rfl⟩
  rw [MemoryStore.pointer?_savePointer_self] at hp'
  cases hp'
  exact h hactive

/-- What starts from one more completed section has not taken any back. -/
theorem Advances.of_completing {c : Catalog} {m' : MemoryStore} {section_ : Json}
    {record : CompletionRecord} (advances : Advances c (m.completing user section_ record) m' user)
    (hfinished : (m.completing user section_ record).finished user =
      m.finished user ++ [section_]) : Advances c m m' user := by
  refine ⟨advances.progress, advances.unfinished, List.IsPrefix.trans ?_ advances.grows⟩
  rw [hfinished]
  exact List.prefix_append _ _

section

variable (accepted : f.catalog.Accepted) (trimmed : f.catalog.HasTrimmedKeys)

include accepted trimmed

/-- A patch that does not write the record is no step back. -/
theorem advances_patched {scope : Json} {patch : Fields} (progress : Progress f.catalog m user)
    (unfinished : Unfinished m user) (hscope : scope.isKey = true)
    (hpatch : ∀ e ∈ patch, e.1.isKey = true ∧ (e.1 == Bookkeeping.completed) = false) :
    Advances f.catalog m (m.patched user scope patch) user := by
  refine ⟨(progress.patched hscope hpatch).1, fun p hp hactive => ?_, List.prefix_rfl⟩
  rw [progress.completed_patched accepted trimmed hscope hpatch]
  exact unfinished p hp hactive

theorem advances_of_enter {left attempts : Nat} {target : Option Json}
    {transitions : List FlowStatus} (progress : Progress f.catalog w.store user)
    (h : (f.enter user channel lead note left attempts target transitions).run w = (.ok r, w')) :
    Advances f.catalog w.store w'.store user := by
  -- every section on the way is completed before the next one is entered
  refine f.run_enter_induct user channel lead note
    (P := fun w _ outcome => Progress f.catalog w.store user → ∀ {r w'}, outcome = (.ok r, w') →
      Advances f.catalog w.store w'.store user)
    ?ends ?fails ?asks ?passes left attempts target transitions w progress h
  case ends =>
    intro w _ progress r w' h
    cases congrArg Prod.snd h
    exact advances_savePointer progress fun hactive => by cases hactive
  case fails =>
    intro w _ e sessions progress r w' h
    cases h
  case asks =>
    intro w _ left attempts section_ s stageKey qid q hentry progress r w' h
    cases congrArg Prod.snd h
    exact advances_savePointer progress fun _ => (fresh_of_entry accepted trimmed hentry).2
  case passes =>
    intro w _ left attempts section_ outcome hentry ih progress r w' h
    obtain ⟨hknown, hfresh⟩ := fresh_of_entry accepted trimmed hentry
    obtain ⟨hprogress, hfinished⟩ := progress.completing accepted trimmed hknown hfresh
      (r := ⟨section_, .str CompletionRecord.mainPosition, .str (sessionText (w.sessions + 1)),
        .str w.now⟩) rfl
    exact (ih hprogress h).of_completing hfinished

variable {p : Pointer} {q : Question} {a : Acceptance}

theorem advances_of_leave {s : State} {transitions : List FlowStatus}
    (progress : Progress f.catalog w.store user)
    (known : (f.catalog.process? p.sectionKey).isSome = true)
    (fresh : p.sectionKey ∉ w.store.completed user)
    (h : (f.leave user p s transitions channel note).run w = (.ok r, w')) :
    Advances f.catalog w.store w'.store user := by
  obtain ⟨e, -, hr, -⟩ | ⟨q, -, -, rfl⟩ | ⟨e, -, hr, -⟩ | ⟨lead, target, -, henter⟩ :=
    leave_cases h
  · cases hr
  · exact advances_savePointer progress fun _ => fresh
  · cases hr
  · obtain ⟨hprogress, hfinished⟩ := progress.completing accepted trimmed known fresh
      (r := ⟨p.sectionKey, p.stageKey.filledOr (.str CompletionRecord.mainPosition), p.sessionId,
        .str w.now⟩) rfl
    exact (advances_of_enter accepted trimmed (w := departed w user p) hprogress
      henter).of_completing hfinished

theorem advances_of_carryAcceptance (progress : Progress f.catalog w.store user)
    (known : (f.catalog.process? p.sectionKey).isSome = true)
    (fresh : p.sectionKey ∉ w.store.completed user) (hkey : p.sectionKey.isKey = true)
    (hpatch : ∀ e ∈ a.patch, e.1.isKey = true ∧ (e.1 == Bookkeeping.completed) = false)
    (h : (f.carryAcceptance user p a channel).run w = (.ok r, w')) :
    Advances f.catalog w.store w'.store user := by
  obtain ⟨hprogress, hfinished⟩ := progress.patched hkey hpatch
  -- the patch leaves the record alone, so the section is still to be completed
  have hfresh : p.sectionKey ∉ (w.store.patched user p.sectionKey a.patch).completed user := by
    rw [progress.completed_patched accepted trimmed hkey hpatch]
    exact fresh
  suffices hpatched : Advances f.catalog (w.store.patched user p.sectionKey a.patch) w'.store user
    from ⟨hpatched.progress, hpatched.unfinished, hpatched.grows⟩
  obtain ⟨-, -, rfl⟩ | ⟨nq, -, -, -, rfl⟩ | ⟨-, -, h⟩ := acceptance_cases hkey h
  · obtain ⟨hcompleted, hfinished⟩ := hprogress.completing accepted trimmed known hfresh
      (r := ⟨p.sectionKey, p.stageKey.filledOr (.str CompletionRecord.mainPosition), p.sessionId,
        .str w.now⟩) rfl
    refine Advances.of_completing ⟨⟨hcompleted.regular, hcompleted.only, hcompleted.recorded,
      hcompleted.distinct, hcompleted.known⟩, fun p' hp' => ?_, List.prefix_rfl⟩ hfinished
    rw [MemoryStore.pointer?_deletePointer_self] at hp'
    cases hp'
  · exact advances_savePointer hprogress fun _ => hfresh
  · exact advances_of_leave accepted trimmed
      (w := { w with store := w.store.patched user p.sectionKey a.patch })
      hprogress known hfresh h

end

/-- No answer, no rule and no preparer writes the record of completed sections. -/
structure SparesRecord (f : Flow) : Prop where
  /-- No question has it as its field. -/
  questions : ∀ e ∈ f.catalog.questions, e.2.fieldKey ≠ Bookkeeping.completed
  /-- No rule derives it. -/
  rules : ∀ r ∈ f.catalog.derivedRules, r.target ≠ Bookkeeping.completed
  /-- The preparer adds no values. -/
  prepared : ∀ q s text, (f.prepared q s text).extra = []

/-- Without rules and without a preparer only the fields of questions matter. -/
theorem sparesRecord_of_unruled {c : Catalog} (hrules : c.derivedRules.isEmpty = true)
    (hquestions : (c.questions.all fun e => !(e.2.fieldKey == Bookkeeping.completed)) = true) :
    (Flow.mk c none).SparesRecord := by
  refine ⟨fun e he hkey => ?_, fun r hr => ?_, fun _ _ _ => rfl⟩
  · have hfree := List.all_eq_true.1 hquestions e he
    rw [hkey] at hfree
    cases hfree
  · rw [List.isEmpty_iff.1 hrules] at hr
    cases hr

theorem free_noteKeys (isTable : Bool) :
    ∀ key ∈ noteKeys isTable, (key == Bookkeeping.completed) = false := by
  cases isTable <;> decide

/-- What an answer stores stands under scalars, and not in the place of the record. -/
theorem SparesRecord.patch (spares : f.SparesRecord) {p : Pointer} {q : Question}
    {a : Acceptance} {answer : Json}
    (h : (Decision.accept p q a).Grounded f m user answer channel) :
    ∀ e ∈ a.patch, e.1.isKey = true ∧ (e.1 == Bookkeeping.completed) = false := by
  obtain ⟨-, hquestion, s, text, s', applied, accepts⟩ := h
  obtain ⟨derived, pending, notes, passed⟩ := passed_of_judge accepts.judged
  obtain ⟨s₁, derives⟩ := State.derives_of_applyDerived passed.rules
  obtain ⟨v, hvalue, -⟩ := applyValue_of_taking accepts.taken
  have apart {key : Json} (h : key ≠ Bookkeeping.completed) :
      (key == Bookkeeping.completed) = false :=
    Bool.eq_false_iff.2 fun hbeq => h ((Json.beq_str _ _).1 hbeq)
  intro e he
  rw [passed.patch, spares.prepared] at he
  rcases key_of_mem_answerPatch he with ⟨d, hd, -⟩ | ⟨d, hd, hkey⟩ | hkey | ⟨d, hd, hkey⟩
  · cases hd
  · obtain ⟨r, hr, htarget⟩ := derives.targets d hd
    rw [← hkey]
    exact ⟨derives.regular.isKey d hd, apart (htarget ▸ spares.rules r hr)⟩
  · obtain ⟨e', he', hq⟩ := holds_of_questionAt hquestion
    rw [← hkey]
    obtain ⟨hfield, -, hisKey⟩ := applied_of_applyValue hvalue
    refine ⟨hfield ▸ hisKey, apart ?_⟩
    rw [hfield, ← hq]
    exact spares.questions e' he'
  · have hmem : d.1 ∈ noteKeys q.isTable := by
      rw [← keys_of_bookkeeping passed.written]
      exact List.mem_map_of_mem hd
    rw [← hkey]
    exact ⟨Bookkeeping.isKey_of_owns (owns_noteKeys q.isTable d.1 hmem),
      free_noteKeys q.isTable d.1 hmem⟩

section

variable (accepted : f.catalog.Accepted) (trimmed : f.catalog.HasTrimmedKeys)
  (spares : f.SparesRecord)

include accepted trimmed spares

theorem advances_of_carryOut {answer : Json} {d : Decision}
    (progress : Progress f.catalog w.store user) (unfinished : Unfinished w.store user)
    (grounded : d.Grounded f w.store user answer channel)
    (h : (f.carryOut user channel d).run w = (.ok r, w')) :
    Advances f.catalog w.store w'.store user := by
  cases d with
  | closed =>
    rw [run_closed] at h
    cases congrArg Prod.snd h
    exact ⟨progress, unfinished, List.prefix_rfl⟩
  | begin isLost =>
    rw [run_begin, run_start] at h
    cases isLost with
    | false => exact advances_of_enter accepted trimmed progress h
    | true =>
      have advances := advances_of_enter accepted trimmed
        (w := { w with store := w.store.deletePointer user }) ⟨progress.regular, progress.only,
          progress.recorded, progress.distinct, progress.known⟩ h
      exact ⟨advances.progress, advances.unfinished, advances.grows⟩
  | redirect p s e =>
    obtain ⟨stands, -⟩ := grounded
    rw [run_redirect] at h
    cases congrArg Prod.snd h
    exact advances_savePointer progress fun _ => unfinished p stands.pointer stands.isActive
  | depart p s =>
    exact advances_of_leave accepted trimmed progress grounded.isKnown
      (unfinished p grounded.pointer grounded.isActive) h
  | reask p q =>
    rw [run_reask] at h
    cases congrArg Prod.snd h
    exact ⟨progress, unfinished, List.prefix_rfl⟩
  | reject p stored q error =>
    rw [run_reject grounded.1.isKey] at h
    cases congrArg Prod.snd h
    unfold cleared
    split
    · refine advances_patched accepted trimmed progress unfinished grounded.1.isKey fun e he => ?_
      rw [List.mem_singleton.1 he]
      decide
    · exact ⟨progress, unfinished, List.prefix_rfl⟩
  | collect p q c =>
    rw [run_collect grounded.1.isKey] at h
    cases congrArg Prod.snd h
    refine advances_patched accepted trimmed progress unfinished grounded.1.isKey fun e he => ?_
    exact ⟨(regular_draftPatch q c).isKey e he, (owns_draftPatch e he).2.2⟩
  | accept p q a =>
    have hpatch := spares.patch grounded
    obtain ⟨stands, -⟩ := grounded
    exact advances_of_carryAcceptance accepted trimmed progress stands.isKnown
      (unfinished p stands.pointer stands.isActive) stands.isKey hpatch h

theorem advances_of_processTurn {answer : Json} (progress : Progress f.catalog w.store user)
    (unfinished : Unfinished w.store user)
    (h : (f.processTurn user answer channel).run w = (.ok r, w')) :
    Advances f.catalog w.store w'.store user := by
  obtain ⟨d, hdecide, hrun, -⟩ := told_of_processTurn h
  exact advances_of_carryOut accepted trimmed spares progress unfinished
    (grounded_of_decide hdecide) hrun

end

/-! ## Many turns -/

theorem Progress.congr {m' : MemoryStore} {c : Catalog} (progress : Progress c m user)
    (hscopes : m'.scopes user = m.scopes user) (hrecords : m'.records user = m.records user) :
    Progress c m' user := by
  have hfinished : m'.finished user = m.finished user := by
    rw [MemoryStore.finished, hrecords]
    rfl
  have hown (key : Json) : m'.own? user flowScope key = m.own? user flowScope key := by
    rw [MemoryStore.own?, hscopes]
    rfl
  refine ⟨?_, ?_, ?_, ?_, ?_⟩
  · rw [hscopes]
    exact progress.regular
  · rw [hscopes]
    exact progress.only
  · rw [hown, hfinished]
    exact progress.recorded
  · rw [hfinished]
    exact progress.distinct
  · rw [hfinished]
    exact progress.known

/-- What leaves a user alone is no step back. -/
theorem advances_of_same {m' : MemoryStore} {c : Catalog} (progress : Progress c m user)
    (unfinished : Unfinished m user)
    (hpointer : ∀ p, m'.pointer? user = some p → m.pointer? user = some p)
    (hscopes : m'.scopes user = m.scopes user) (hrecords : m'.records user = m.records user) :
    Advances c m m' user := by
  refine ⟨progress.congr hscopes hrecords, fun p hp hactive => ?_, ?_⟩
  · rw [MemoryStore.completed, hscopes]
    exact unfinished p (hpointer p hp) hactive
  · rw [MemoryStore.finished, MemoryStore.finished, hrecords]

end Flow

/-- An event of the conversation itself, not a write of another program. -/
def Event.IsOwn : Event → Prop
  | .write _ _ _ => False
  | _ => True

namespace Flow

variable {f : Flow} {w w' : World MemoryStore} {log : List Event} {e : Event}

section

variable (accepted : f.catalog.Accepted) (trimmed : f.catalog.HasTrimmedKeys)
  (spares : f.SparesRecord)

include accepted trimmed spares

theorem advances_of_step (own : e.IsOwn) (h : f.Step w e w') (user : String)
    (progress : Progress f.catalog w.store user) (unfinished : Unfinished w.store user) :
    Advances f.catalog w.store w'.store user := by
  cases h with
  | @turn _ other answer channel now r hturn =>
    by_cases hother : user = other
    · subst hother
      exact advances_of_processTurn accepted trimmed spares (w := { w with now := now }) progress
        unfinished hturn
    · have elsewhere := elsewhere_of_processTurn hturn
      refine advances_of_same progress unfinished (fun p hp => ?_) (elsewhere.scopes user hother)
        (elsewhere.records user hother)
      rw [← hp]
      exact (elsewhere.pointer user hother).symm
  | @reset _ other hreset =>
    cases congrArg Prod.snd hreset
    refine advances_of_same progress unfinished (fun p hp => ?_) rfl rfl
    have hp : (w.store.deletePointer other).pointer? user = some p := hp
    rw [MemoryStore.pointer?_deletePointer] at hp
    split at hp
    · cases hp
    · exact hp
  | write h => cases own

theorem progress_of_conversation (talk : f.Conversation log w) (own : ∀ e ∈ log, e.IsOwn)
    (user : String) : Progress f.catalog w.store user ∧ Unfinished w.store user := by
  induction talk with
  | start w h =>
    rw [h]
    exact ⟨progress_empty _ user, fun p hp => by cases hp⟩
  | step talk h ih =>
    obtain ⟨progress, unfinished⟩ := ih fun e he => own e (List.mem_cons_of_mem _ he)
    have advances := advances_of_step accepted trimmed spares (own _ List.mem_cons_self) h user
      progress unfinished
    exact ⟨advances.progress, advances.unfinished⟩

end

/-- In a conversation with an accepted catalog no section is completed twice: the sections that are
read back as completed are distinct, they are those of the history in order, the section of a
pointer is not among them, and no further event takes one of them back. -/
theorem completed_once (accepted : f.catalog.Accepted) (trimmed : f.catalog.HasTrimmedKeys)
    (spares : f.SparesRecord) (talk : f.Conversation log w) (own : ∀ e ∈ log, e.IsOwn)
    (user : String) :
    (w.store.completed user).Nodup ∧
    w.store.completed user = (w.store.records user).map (·.sectionKey) ∧
    (∀ p, w.store.pointer? user = some p → p.isTerminal = false →
      p.sectionKey ∉ w.store.completed user) ∧
    ∀ e w', e.IsOwn → f.Step w e w' → w.store.completed user <+: w'.store.completed user := by
  obtain ⟨progress, unfinished⟩ :=
    progress_of_conversation accepted trimmed spares talk own user
  have heq := progress.completed_eq accepted trimmed
  refine ⟨?_, heq, unfinished, fun e w' hown hstep => ?_⟩
  · rw [heq]
    exact progress.distinct
  · have advances := advances_of_step accepted trimmed spares hown hstep user progress unfinished
    rw [heq, advances.progress.completed_eq accepted trimmed]
    exact advances.grows

/-- After its only question is answered, the only section of a catalog is completed once. -/
theorem completed_once_greeting : ∃ f r r' w, f.catalog.Accepted ∧
    Conversation f [.turn "u1" r', .turn "u1" r] w ∧
      (w.store.records "u1").length = 1 ∧ (w.store.completed "u1").Nodup ∧
      w.store.completed "u1" = (w.store.records "u1").map (·.sectionKey) := by
  have evaluated : (match Catalog.ofJson greeting "catalog.json" with
      | .error _ => false
      | .ok (c, _) =>
        c.processes.all (·.1.isTrimmed) && c.derivedRules.isEmpty &&
        c.questions.all (fun e => !(e.2.fieldKey == Bookkeeping.completed)) &&
        match ((Flow.mk c none).processTurn "u1" .null .null).run untouchedWorld with
        | (.error _, _) => false
        | (.ok _, w) =>
          match ((Flow.mk c none).processTurn "u1" (.str "Ann") .null).run w with
          | (.error _, _) => false
          | (.ok _, w) => (w.store.records "u1").length == 1) = true := by
    decide +kernel
  split at evaluated
  · cases evaluated
  · rename_i c warnings hc
    simp only [Bool.and_eq_true] at evaluated
    obtain ⟨⟨⟨htrimmed, hrules⟩, hquestions⟩, evaluated⟩ := evaluated
    split at evaluated
    · cases evaluated
    · rename_i r w hfirst
      split at evaluated
      · cases evaluated
      · rename_i r' w' hsecond
        have accepted : c.Accepted := ⟨greeting, "catalog.json", warnings, hc⟩
        have hanswered : Step (Flow.mk c none) w (.turn "u1" r') w' := .turn hsecond
        have talk : Conversation (Flow.mk c none) [.turn "u1" r', .turn "u1" r] w' :=
          .step (.step (.start untouchedWorld rfl) (.turn hfirst)) hanswered
        have own : ∀ e ∈ [Event.turn "u1" r', .turn "u1" r], e.IsOwn := by
          simp [Event.IsOwn]
        obtain ⟨hdistinct, hrecords, -⟩ := completed_once accepted (List.all_eq_true.1 htrimmed)
          (sparesRecord_of_unruled hrules hquestions) talk own "u1"
        exact ⟨Flow.mk c none, r, r', w', accepted, talk, by simpa using evaluated, hdistinct,
          hrecords⟩

end Flow

end Questionnaire
