import Questionnaire.Proofs.State.Counting
import Questionnaire.Proofs.Turn.Derivation
import Questionnaire.Proofs.Turn.Reload

/-!
# What a preparer contributes

A preparer of answers may give further values beside the answer.  They are stored with it, but the
next question was selected without them.  So the pointer may stand at a question that was not due
any more when it was asked, and the answer to it is set aside.

## Main Definitions

* `Flow.counted` - the question that is due when everything that was stored counts as given
* `Flow.Asks` - the pointer of a user stands at the question that a result asks
* `Flow.IsCurrent` - the pointer of a user stands at the question that is due
* `Decision.question?` - the question whose answer a decision looks at

## Main Statements

* `Flow.due_patched` - after an answer that question is due that counts everything stored
* `Flow.outdated_iff_counted` - when the pointer is out of date in the following turn
* `Flow.isCurrent_of_knows` - it is not when nothing was stored that the catalog would miss
-/

namespace Questionnaire

/-- The question whose answer a decision looks at. -/
def Decision.question? : Decision → Option Question
  | .reask _ q => some q
  | .reject _ _ q _ => some q
  | .collect _ q _ => some q
  | .accept _ q _ => some q
  | _ => none

namespace Flow

variable {f : Flow} {user : String} {m m' : MemoryStore} {w w' : World MemoryStore} {p : Pointer}
  {q : Question} {a : Acceptance} {r : TurnResult} {answer channel : Json}

/-! ## What is due after an answer -/

/-- The question that is due in a section when everything that an answer stores counts as given. -/
def counted (f : Flow) (p : Pointer) (a : Acceptance) (channel : Json) :
    Except Fault (Option NextQuestion) := do
  let s ← a.state.counting f.catalog a.patch
  s.nextQuestion? f.catalog (some (f.catalog.stageKeysOf p.sectionKey)) channel

/-- What is due depends on the stored values only. -/
theorem due_congr (h : m'.scopes user = m.scopes user) (section_ channel : Json) :
    f.due m' user section_ channel = f.due m user section_ channel := by
  rw [due, due, h]

section

variable (loaded : f.catalog.Loaded) (unruled : f.catalog.derivedRules = [])
  (uncomputed : f.catalog.computedVars = []) (wellFormed : m.WellFormed)
  (h : f.decide m user answer channel = .ok (.accept p q a))

include loaded unruled uncomputed wellFormed h

/-- Without rules and computed variables the answer is all that was added to the stored values
before the next question was selected. -/
theorem exists_grants_of_unruled :
    ∃ s text v notes, f.Grants ((m.scopes user).read p.sectionKey) q a s v
        (f.prepared q s text).extra [] notes ∧
      s.values = State.completed f.catalog ((m.scopes user).read p.sectionKey) ∧
      ∀ k, Assoc.valueAt? k a.state.values =
        Assoc.valueAt? k (Assoc.put q.fieldKey v s.values) := by
  obtain ⟨s, text, v, updates, notes, -, -, grants⟩ :=
    exists_grants_of_accept loaded (by simp [uncomputed]) wellFormed h
  have hupdates : updates = [] := by
    refine List.eq_nil_iff_forall_not_mem.2 fun e he => ?_
    obtain ⟨r, hr, -⟩ := grants.settles.targets e he
    rw [unruled] at hr
    cases hr
  subst hupdates
  have hvalues := grants.values
  obtain ⟨written, hwritten, hput⟩ := grants.settles.values
  rw [uncomputed] at hvalues hwritten
  cases hwritten
  refine ⟨s, text, v, notes, grants, (Except.ok.inj hvalues).symm, fun k => hput k ?_⟩
  simp [uncomputed]

variable (named : f.AddsNamed)

include named

/-- After an answer that question is due that counts everything that was stored. -/
theorem due_patched (channel' : Json) :
    f.due (m.patched user p.sectionKey a.patch) user p.sectionKey channel' =
      f.counted p a channel' := by
  obtain ⟨stands, -⟩ := grounded_of_decide h
  have regular := (wellFormed.scopes user).regular
  obtain ⟨s, text, v, notes, grants, hvalues, hput⟩ :=
    exists_grants_of_unruled loaded unruled uncomputed wellFormed h
  have hpatch : Assoc.Regular a.patch := grants.regular (named q s text)
  have hkey : Assoc.hasKey q.fieldKey (Scopes.written a.patch) = true := by
    obtain ⟨pending, hnotes⟩ := grants.written
    obtain ⟨qid, heq⟩ := grants.patch
    rw [heq]
    exact hasKey_written_answerPatch ⟨qid, q.fieldKey, v⟩ (named q s text) hnotes .nil
      grants.settles.isKey grants.isValue.ne_null
  rw [hvalues] at hput
  have hstatus (k : Json) : Assoc.valueAt? k a.state.status =
      Assoc.valueAt? k (Assoc.put q.fieldKey .answered
        (State.completedStatus f.catalog ((m.scopes user).read p.sectionKey))) := by
    rw [← grants.status]
    exact grants.settles.status k
  have hread (k : Json) : Assoc.valueAt? k
      (((m.scopes user).write p.sectionKey a.patch).read p.sectionKey) =
        (Assoc.valueAt? k (Scopes.written a.patch)).or
          (Assoc.valueAt? k ((m.scopes user).read p.sectionKey)) := by
    rw [Scopes.valueAt?_read_write stands.isKey regular hpatch, Scopes.valueAt?_written hpatch]
  rw [due, counted, MemoryStore.scopes_patched_self, loadState,
    grants.storedDocument_read (named q s text) stands.isKey regular]
  exact State.nextQuestion?_counting loaded.defaults.1 uncomputed hpatch
    (Json.isName_of_isKey grants.settles.isKey) hput hstatus hkey hread _ channel'

/-- When the state that was checked knows everything that is stored, as far as the catalog looks at
it, the question is due that was selected. -/
theorem counted_of_knows (looks : f.catalog.LooksOnlyAt (a.state.Knows a.patch)) :
    f.counted p a channel = .ok a.next := by
  obtain ⟨-, -, s, text, s₁, applied, accepts⟩ := grounded_of_decide h
  obtain ⟨derived, pending, notes, passed⟩ := passed_of_judge accepts.judged
  obtain ⟨s, text, v, notes, grants, -⟩ :=
    exists_grants_of_unruled loaded unruled uncomputed wellFormed h
  rw [← passed.next]
  exact State.nextQuestion?_counting_of_knows uncomputed (grants.regular (named q s text))
    grants.settles.enabled looks _ _

end

/-! ## The question that a result asks -/

/-- The pointer of a user stands at the question that a result asks. -/
structure Asks (f : Flow) (m : MemoryStore) (user : String) (r : TurnResult) (p : Pointer)
    (q : Question) : Prop where
  /-- The pointer stands in a section. -/
  stands : f.Stands m user p
  /-- It stands at a question of the catalog. -/
  holds : f.catalog.Holds q
  /-- The question is named by its identifier. -/
  position : p.position = q.qid
  /-- The result asks it. -/
  shows : r.Shows q

/-- The pointer of a user stands at the question that is due, if one is. -/
def IsCurrent (f : Flow) (m : MemoryStore) (user : String) (p : Pointer) (channel : Json) : Prop :=
  ∃ found, f.due m user p.sectionKey channel = .ok found ∧ ∀ e ∈ found, e.qid = p.position

theorem shows_of_prompt {section_ : Json} {transitions : List FlowStatus} {parts : PromptParts}
    {stage : Stage}
    (h : prompt (State.present stage channel q) section_ transitions parts = .ok r) :
    r.Shows q ∧ r.transitions = transitions := by
  obtain ⟨output, -, h⟩ := Outcome.bind_eq_ok_iff.1 h
  cases h
  exact ⟨⟨rfl, stage, channel, rfl⟩, rfl⟩

/-- A section that is entered asks the question that is due there, or one that is missing when none
is due. -/
theorem isCurrent_of_entry {left attempts : Nat} {section_ stageKey qid : Json} {s : State}
    {nq : Except Fault NextQuestion}
    (h : f.entry m user channel left attempts section_ = .ok (.ask s stageKey qid nq)) :
    section_.isKey = true ∧ (f.catalog.process? section_).isSome = true ∧
      ∃ found, f.due m user section_ channel = .ok found ∧ ∀ e ∈ found, e.qid = qid := by
  obtain ⟨process, hadmitted, hoffer⟩ := Outcome.bind_eq_ok_iff.1 h
  have hprocess := f.process?_of_admitted user hadmitted
  obtain ⟨stored, hstored, hoffer⟩ := Outcome.bind_eq_ok_iff.1 hoffer
  obtain ⟨key, hkey, hstored⟩ := Outcome.bind_eq_ok_iff.1 hstored
  obtain ⟨isKey, rfl⟩ := (Json.asKey_eq_ok_iff _ _).1 hkey
  cases hstored
  obtain ⟨s', hs, hoffer⟩ := Outcome.bind_eq_ok_iff.1 hoffer
  obtain ⟨found, hfound, hoffer⟩ := Outcome.bind_eq_ok_iff.1 hoffer
  have hdue : f.due m user section_ channel = .ok found := by
    refine Outcome.bind_eq_ok_iff.2 ⟨s', hs, ?_⟩
    rw [Catalog.stageKeysOf, hprocess]
    exact hfound
  refine ⟨isKey, by rw [hprocess]; rfl, found, hdue, ?_⟩
  rintro e rfl
  cases hoffer
  rfl

/-- A chain of sections that ends with a question leaves the pointer at what is due. -/
theorem asks_of_enter {lead : String} {note : TurnNote} {left attempts : Nat}
    {target : Option Json} {transitions : List FlowStatus}
    (h : (f.enter user channel lead note left attempts target transitions).run w = (.ok r, w'))
    (hprompt : r.kind = .prompt) :
    (∃ p q, f.Asks w'.store user r p q ∧ f.IsCurrent w'.store user p channel) ∧
      ∀ t ∈ transitions, t ∈ r.transitions := by
  revert r w'
  refine f.run_enter_induct user channel lead note
    (P := fun _ transitions outcome => ∀ {r w'}, outcome = (.ok r, w') → r.kind = .prompt →
      (∃ p q, f.Asks w'.store user r p q ∧ f.IsCurrent w'.store user p channel) ∧
        ∀ t ∈ transitions, t ∈ r.transitions)
    ?ends ?fails ?asks ?passes left attempts target transitions w
  case ends =>
    intro w transitions r w' h hprompt
    obtain ⟨closing, -, h⟩ := Outcome.bind_eq_ok_iff.1 (congrArg Prod.fst h)
    obtain ⟨output, -, h⟩ := Outcome.bind_eq_ok_iff.1 h
    cases h
    cases hprompt
  case fails =>
    intro w transitions e sessions r w' h
    cases h
  case asks =>
    intro w transitions left attempts section_ s stageKey qid nq? hentry r w' h hprompt
    cases congrArg Prod.snd h
    obtain ⟨intro, -, hopening⟩ := Outcome.bind_eq_ok_iff.1 (congrArg Prod.fst h)
    obtain ⟨nq, hnq, hasked⟩ := Outcome.bind_eq_ok_iff.1 hopening
    obtain ⟨isKey, isKnown, hdue⟩ := isCurrent_of_entry hentry
    rw [hnq] at hentry
    obtain ⟨stage, q, hq, rfl, rfl⟩ := ask_of_entry hentry
    obtain ⟨hshows, htransitions⟩ := shows_of_prompt hasked
    refine ⟨⟨opened w section_ stageKey q.qid, q, ⟨⟨?_, rfl, isKey, isKnown⟩, hq, rfl, hshows⟩,
      hdue⟩, ?_⟩
    · exact MemoryStore.pointer?_savePointer_self w.store user _
    · rw [htransitions]
      exact fun t ht => List.mem_append_left _ ht
  case passes =>
    intro w transitions _ _ section_ outcome _ ih r w' h hprompt
    obtain ⟨hasks, hmem⟩ := ih h hprompt
    exact ⟨hasks, fun t ht => hmem t (List.mem_append_left _ ht)⟩

/-- The two ways in which a turn that accepts an answer asks a question: in the section of the
answer, whose stored values it has left at the patch, or in a section that was entered. -/
theorem exists_asks_of_accept (hdecide : f.decide w.store user answer channel = .ok (.accept p q a))
    (hrun : (f.processTurn user answer channel).run w = (.ok r, w')) (hprompt : r.kind = .prompt) :
    ∃ p' q', f.Asks w'.store user r p' q' ∧
      (.sectionComplete ∉ r.transitions ∧ p'.sectionKey = p.sectionKey ∧
          w'.store.scopes user = (w.store.patched user p.sectionKey a.patch).scopes user ∧
          (∀ e ∈ a.next, e.qid = q'.qid) ∨
        .sectionComplete ∈ r.transitions ∧ f.IsCurrent w'.store user p' channel) := by
  obtain ⟨stands, -, s, text, s₁, applied, accepts⟩ := grounded_of_decide hdecide
  obtain ⟨derived, pending, notes, passed⟩ := passed_of_judge accepts.judged
  have hnext := passed.next
  rw [run_processTurn, hdecide] at hrun
  obtain ⟨-, hr, -⟩ | ⟨nq, -, hselected, hr, rfl⟩ | ⟨-, hnone, hleave⟩ :=
    acceptance_cases stands.isKey hrun
  · obtain ⟨output, -, hr⟩ := Outcome.bind_eq_ok_iff.1 hr.symm
    cases hr
    cases hprompt
  · -- the next question of the section is asked
    rw [hselected] at hnext
    obtain ⟨stage, q', hq', rfl⟩ := State.nextQuestion?_eq_some hnext
    obtain ⟨intro, -, hr⟩ := Outcome.bind_eq_ok_iff.1 hr.symm
    obtain ⟨hshows, htransitions⟩ := shows_of_prompt hr
    have hstays : .sectionComplete ∉ r.transitions := by simp [htransitions]
    refine ⟨p.advance q'.qid (State.present stage channel q').stageKey, q',
      ⟨⟨?_, stands.isActive, stands.isKey, stands.isKnown⟩, hq', rfl, hshows⟩,
      .inl ⟨hstays, rfl, rfl, ?_⟩⟩
    · exact MemoryStore.pointer?_savePointer_self _ user _
    · simp [hselected, State.present]
  · obtain ⟨e, -, hr, -⟩ | ⟨q', hdeparture, hr, rfl⟩ | ⟨e, -, hr, -⟩ | ⟨lead, target, -, henter⟩ :=
      leave_cases hleave
    · cases hr
    · -- a required answer is missing
      obtain ⟨view, hview, hr⟩ := Outcome.bind_eq_ok_iff.1 hr.symm
      obtain ⟨stage, -, hview⟩ := Outcome.bind_eq_ok_iff.1 hview
      cases hview
      obtain ⟨hshows, htransitions⟩ := shows_of_prompt hr
      have hstays : .sectionComplete ∉ r.transitions := by simp [htransitions]
      refine ⟨p.advance q'.qid q'.stageKey, q',
        ⟨⟨?_, stands.isActive, stands.isKey, stands.isKnown⟩, holds_of_departure hdeparture, rfl,
          hshows⟩, .inl ⟨hstays, rfl, rfl, ?_⟩⟩
      · exact MemoryStore.pointer?_savePointer_self _ user _
      · simp [hnone]
    · cases hr
    · -- the section is completed, and another one is entered
      obtain ⟨⟨p', q', hasks, hcurrent⟩, hmem⟩ := asks_of_enter henter hprompt
      exact ⟨p', q', hasks, .inr ⟨hmem _ (by simp), hcurrent⟩⟩

/-! ## The following turn -/

/-- A pointer at the question that is due is out of date only when its position does not equal
itself. -/
theorem IsCurrent.not_equal_of_isStale {channel' : Json} {d : Decision}
    (current : f.IsCurrent m user p channel) (stands : f.Stands m user p)
    (h : f.decide m user answer channel' = .ok d) (hstale : d.isStale = true) :
    p.position.equal p.position = false := by
  obtain ⟨found, hdue, hcurrent⟩ := current
  obtain ⟨e, he, hne⟩ := (isStale_iff_of_due stands hdue h).1 hstale
  rwa [hcurrent e he] at hne

/-- A pointer at a question of the catalog is followed to it. -/
theorem Asks.questionAt (asks : f.Asks m user r p q) (accepted : f.catalog.Accepted) :
    f.questionAt user p.position = .ok (some q) := by
  have files := Catalog.filesQuestions_of_accepted accepted
  obtain ⟨e, he, rfl⟩ := asks.holds
  have hkey : e.2.qid.isKey = true := by
    rw [files.filed.own e he]
    exact files.filed.isKey e he
  have hfound : f.catalog.question? e.2.qid = some e.2 := by
    rw [files.filed.own e he]
    exact files.filed.valueAt?_of_mem he
  rw [Flow.questionAt, asks.position, if_pos (files.filled e he),
    (Json.asKey_eq_ok_iff _ _).2 ⟨hkey, rfl⟩, Outcome.ok_bind, hfound]
  rfl

/-- A turn looks at the answer to the question of its pointer, unless the pointer is out of date. -/
theorem question?_of_decide (stands : f.Stands m user p)
    (hquestion : f.questionAt user p.position = .ok (some q)) {d : Decision}
    (h : f.decide m user answer channel = .ok d) (hstale : d.isStale = false) :
    d.question? = some q := by
  rw [decide_of_stands stands, decideActive, MemoryStore.getFields_of_isKey stands.isKey,
    Outcome.ok_bind] at h
  obtain ⟨s, -, h⟩ := Outcome.bind_eq_ok_iff.1 h
  rw [hquestion, Outcome.ok_bind] at h
  obtain ⟨expected, -, h⟩ := Outcome.bind_eq_ok_iff.1 h
  cases hfilter : expected.filter fun e => !e.qid.equal p.position with
  | some e =>
    rw [hfilter] at h
    cases h
    cases hstale
  | none =>
    rw [hfilter] at h
    obtain ⟨text, -, h⟩ := Outcome.bind_eq_ok_iff.1 h
    dsimp only at h
    split at h
    · cases h
      rfl
    · obtain ⟨taken, -, h⟩ := Outcome.bind_eq_ok_iff.1 h
      cases taken with
      | collected c =>
        cases h
        rfl
      | rejected rejection =>
        cases h
        rfl
      | applied s' applied =>
        obtain ⟨verdict, -, h⟩ := Outcome.bind_eq_ok_iff.1 h
        cases verdict <;> cases h <;> rfl

/-- When nothing is stored with an answer that the catalog looks at and the checked state does not
know, the pointer stands at the question that is due. -/
theorem isCurrent_of_knows (loaded : f.catalog.Loaded) (unruled : f.catalog.derivedRules = [])
    (uncomputed : f.catalog.computedVars = []) (named : f.AddsNamed)
    (wellFormed : w.store.WellFormed)
    (hdecide : f.decide w.store user answer channel = .ok (.accept p q a))
    (looks : f.catalog.LooksOnlyAt (a.state.Knows a.patch))
    (hrun : (f.processTurn user answer channel).run w = (.ok r, w')) (hprompt : r.kind = .prompt) :
    ∃ p' q', f.Asks w'.store user r p' q' ∧ f.IsCurrent w'.store user p' channel := by
  obtain ⟨p', q', asks, hwhere⟩ := exists_asks_of_accept hdecide hrun hprompt
  refine ⟨p', q', asks, ?_⟩
  obtain ⟨-, hsection, hscopes, hselected⟩ | ⟨-, current⟩ := hwhere
  · refine ⟨a.next, ?_, by rwa [asks.position]⟩
    rw [hsection, due_congr hscopes,
      due_patched loaded unruled uncomputed wellFormed hdecide named channel]
    exact counted_of_knows loaded unruled uncomputed wellFormed hdecide named looks
  · exact current

/-- After a turn that accepts an answer and asks a question, the pointer is out of date in the
following turn exactly when another question is due that counts everything stored with the answer,
further values of the preparer included; the question that was asked was selected without these.
When the turn has entered a section to ask the question, the pointer is out of date only if its
position does not equal itself.  In all other turns the answer to the question is looked at. -/
theorem outdated_iff_counted (loaded : f.catalog.Loaded) (unruled : f.catalog.derivedRules = [])
    (uncomputed : f.catalog.computedVars = []) (named : f.AddsNamed)
    (wellFormed : w.store.WellFormed)
    (hdecide : f.decide w.store user answer channel = .ok (.accept p q a))
    (hrun : (f.processTurn user answer channel).run w = (.ok r, w')) (hprompt : r.kind = .prompt) :
    a.state.nextQuestion? f.catalog (some (f.catalog.stageKeysOf p.sectionKey)) channel =
      .ok a.next ∧
    ∃ p' q', f.Asks w'.store user r p' q' ∧
      (.sectionComplete ∉ r.transitions → p'.sectionKey = p.sectionKey ∧
        (∀ e ∈ a.next, e.qid = q'.qid) ∧
        ∀ channel', f.due w'.store user p.sectionKey channel' = f.counted p a channel') ∧
      ∀ now answer' channel' r' w'',
        (f.processTurn user answer' channel').run { w' with now := now } = (.ok r', w'') →
        (.sectionComplete ∉ r.transitions → (r'.isStale = true ↔
          ∃ e, f.counted p a channel' = .ok (some e) ∧ e.qid.equal q'.qid = false)) ∧
        (.sectionComplete ∈ r.transitions → r'.isStale = true → q'.qid.equal q'.qid = false) ∧
        (r'.isStale = false →
          ∃ d, f.decide w'.store user answer' channel' = .ok d ∧ d.question? = some q') := by
  obtain ⟨stands, -, s, text, s₁, applied, accepts⟩ := grounded_of_decide hdecide
  obtain ⟨derived, pending, notes, passed⟩ := passed_of_judge accepts.judged
  obtain ⟨p', q', asks, hwhere⟩ := exists_asks_of_accept hdecide hrun hprompt
  have hdue (hstays : .sectionComplete ∉ r.transitions) (channel' : Json) :
      f.due w'.store user p.sectionKey channel' = f.counted p a channel' := by
    obtain ⟨-, -, hscopes, -⟩ | ⟨hleft, -⟩ := hwhere
    · rw [due_congr hscopes]
      exact due_patched loaded unruled uncomputed wellFormed hdecide named channel'
    · exact absurd hleft hstays
  refine ⟨passed.next, p', q', asks, fun hstays => ?same, ?following⟩
  case same =>
    obtain ⟨-, hsection, -, hselected⟩ | ⟨hleft, -⟩ := hwhere
    · exact ⟨hsection, hselected, hdue hstays⟩
    · exact absurd hleft hstays
  case following =>
    intro now answer' channel' r' w'' hnow
    obtain ⟨d, hd, -, tells⟩ := told_of_processTurn hnow
    have hd : f.decide w'.store user answer' channel' = .ok d := hd
    rw [tells.isStale, ← asks.position]
    refine ⟨fun hstays => ?stays, fun hleft hstale => ?enters, fun hfresh => ?looks⟩
    case stays =>
      obtain ⟨-, hsection, -⟩ | ⟨hleft, -⟩ := hwhere
      · rw [isStale_iff_of_decide asks.stands hd, hsection, hdue hstays]
      · exact absurd hleft hstays
    case enters =>
      obtain ⟨hstays, -⟩ | ⟨-, current⟩ := hwhere
      · exact absurd hleft hstays
      · exact current.not_equal_of_isStale asks.stands hd hstale
    case looks =>
      exact ⟨d, hd, question?_of_decide asks.stands (asks.questionAt loaded.accepted) hd hfresh⟩

/-- A catalog that asks for a name, a telephone number and a city. -/
def contact : Json :=
  .obj [
    ("questions", .arr [
      .obj [("qid", .str "Q1"), ("field_key", .str "name"), ("prompt", .str "Name?")],
      .obj [("qid", .str "Q2"), ("field_key", .str "phone"), ("prompt", .str "Phone?")],
      .obj [("qid", .str "Q3"), ("field_key", .str "city"), ("prompt", .str "City?")]]),
    ("stages", .arr [.obj [("stage_key", .str "s"),
      ("question_ids", .arr [.str "Q1", .str "Q2", .str "Q3"])]]),
    ("processes", .arr [.obj [("process_key", .str "01"), ("stage_keys", .arr [.str "s"])]])]

/-- A preparer that finds a telephone number in one answer. -/
def splitting : Preparer := fun raw _ _ =>
  if raw = "Ann 050" then { answer := "Ann", extra := [(.str "phone", .str "050")] }
  else { answer := raw }

/-- A catalog with this preparer. -/
def repairing (c : Catalog) : Flow := ⟨c, some splitting⟩

/-- A world in which the name is asked for. -/
def pendingIntroduction : World MemoryStore where
  store := {
    pointers := [("u1", ⟨.str "01", .str "Q1", .str "s", .active, .str "00000001"⟩)] }
  sessions := 1
  now := "2000-01-01T00:00:00+00:00"

/-- The turn in which the name is given with the telephone number. -/
def introduced (c : Catalog) : Except Fault TurnResult × World MemoryStore :=
  ((repairing c).processTurn "u1" (.str "Ann 050") .null).run pendingIntroduction

theorem addsNamed_repairing (c : Catalog) : (repairing c).AddsNamed := by
  intro q s text e he
  change e ∈ (splitting text (some q) s.values).extra at he
  unfold splitting at he
  split at he
  · rw [List.mem_singleton.1 he]
    rfl
  · cases he

theorem wellFormed_contact : contact.WellFormed := by
  simp [contact]

theorem wellFormed_pendingIntroduction : pendingIntroduction.store.WellFormed := by
  intro e he
  cases he

/-- Whatever is answered when the telephone number is asked for that was stored already, the pointer
is out of date. -/
theorem outdated_iff_counted_contact : ∃ c r w', c.Loaded ∧
    ((repairing c).processTurn "u1" (.str "Ann 050") .null).run pendingIntroduction = (.ok r, w') ∧
    (∃ nq ∈ r.question, nq.qid = .str "Q2") ∧ ∀ now answer r' w'',
      ((repairing c).processTurn "u1" answer .null).run { w' with now := now } = (.ok r', w'') →
        r'.isStale = true := by
  have evaluated : Outcome.Gives (Catalog.ofJson contact "catalog.json") fun e =>
      e.1.derivedRules.isEmpty = true ∧ e.1.computedVars.isEmpty = true ∧
      Outcome.Gives (introduced e.1).1 (fun r => r.kind = .prompt ∧
        (∃ nq ∈ r.question, nq.qid = .str "Q2") ∧ r.transitions = [.active]) ∧
      Outcome.Gives ((repairing e.1).decide pendingIntroduction.store "u1" (.str "Ann 050") .null)
        (·.Accepting fun p _ a => Outcome.Gives ((repairing e.1).counted p a .null) fun found =>
          ∃ e ∈ found, e.qid = .str "Q3") := by
    decide +kernel
  obtain ⟨⟨c, warnings⟩, hc, hrules, hvars, ⟨r, hr, hprompt, hasked, htransitions⟩, _, haccept, p,
    q, a, rfl, found, hcounted, hfound⟩ := evaluated
  have loaded : c.Loaded := ⟨contact, "catalog.json", warnings, wellFormed_contact, hc⟩
  have hrun : ((repairing c).processTurn "u1" (.str "Ann 050") .null).run pendingIntroduction =
      (.ok r, (introduced c).2) := Prod.ext hr rfl
  obtain ⟨-, p', q', asks, -, hfollowing⟩ :=
    outdated_iff_counted loaded (List.isEmpty_iff.1 hrules) (List.isEmpty_iff.1 hvars)
      (addsNamed_repairing c) wellFormed_pendingIntroduction haccept hrun hprompt
  refine ⟨c, r, (introduced c).2, loaded, hrun, hasked, fun now answer r' w'' hnow => ?_⟩
  have hstays : FlowStatus.sectionComplete ∉ r.transitions := by simp [htransitions]
  refine ((hfollowing now answer .null r' w'' hnow).1 hstays).2 ?_
  -- the number is asked for, and the city is due
  obtain ⟨-, stage, channel, hshown⟩ := asks.shows
  obtain ⟨nq, hnq, hqid⟩ := hasked
  cases hshown.symm.trans hnq
  have hqid : q'.qid = .str "Q2" := hqid
  obtain ⟨e, rfl, he⟩ := hfound
  refine ⟨e, hcounted, ?_⟩
  rw [hqid, he]
  rfl

/-- The telephone number is asked for although it was stored in the same turn, and what is answered
then is set aside. -/
theorem answer_discarded_contact : ∃ c p q a r w' r' w'', c.Loaded ∧ c.derivedRules = [] ∧
    c.computedVars = [] ∧
    (∀ e ∈ c.conditions, ∀ name ∈ Condition.reads e.2, Bookkeeping.owns (.str name) = false) ∧
    (repairing c).decide pendingIntroduction.store "u1" (.str "Ann 050") .null =
      .ok (.accept p q a) ∧
    ((repairing c).processTurn "u1" (.str "Ann 050") .null).run pendingIntroduction = (.ok r, w') ∧
    r.kind = .prompt ∧ r.sectionKey = p.sectionKey ∧ (∃ nq ∈ r.question, nq.qid = .str "Q2") ∧
    ((repairing c).processTurn "u1" (.str "050") .null).run w' = (.ok r', w'') ∧
    r'.isStale = true ∧ (∃ nq ∈ r'.question, nq.qid = .str "Q3") := by
  have evaluated : Outcome.Gives (Catalog.ofJson contact "catalog.json") fun e =>
      e.1.derivedRules.isEmpty = true ∧ e.1.computedVars.isEmpty = true ∧
      (∀ d ∈ e.1.conditions, ∀ name ∈ Condition.reads d.2, Bookkeeping.owns (.str name) = false) ∧
      Outcome.Gives ((repairing e.1).decide pendingIntroduction.store "u1" (.str "Ann 050") .null)
        (·.Accepting fun p _ _ => p.sectionKey = .str "01") ∧
      Outcome.Gives (introduced e.1).1 (fun r => r.kind = .prompt ∧ r.sectionKey = .str "01" ∧
        ∃ nq ∈ r.question, nq.qid = .str "Q2") ∧
      Outcome.Gives (((repairing e.1).processTurn "u1" (.str "050") .null).run
        (introduced e.1).2).1 fun r' =>
          r'.isStale = true ∧ ∃ nq ∈ r'.question, nq.qid = .str "Q3" := by
    decide +kernel
  obtain ⟨⟨c, warnings⟩, hc, hrules, hvars, clear, ⟨_, haccept, p, q, a, rfl, hstands⟩,
    ⟨r, hr, hprompt, hsection, hasked⟩, r', hr', hstale, hdue⟩ := evaluated
  exact ⟨c, p, q, a, r, (introduced c).2, r', _,
    ⟨contact, "catalog.json", warnings, wellFormed_contact, hc⟩, List.isEmpty_iff.1 hrules,
    List.isEmpty_iff.1 hvars, clear, haccept, Prod.ext hr rfl, hprompt, hsection.trans hstands.symm,
    hasked, Prod.ext hr' rfl, hstale, hdue⟩

end Flow

end Questionnaire
