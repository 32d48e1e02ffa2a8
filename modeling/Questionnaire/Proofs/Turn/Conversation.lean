import Questionnaire.Proofs.Catalog.Questions
import Questionnaire.Proofs.State.Selection
import Questionnaire.Proofs.Turn.Result

/-!
# Conversations

Many users talk to the same store, turn by turn, and other programs write collected values in
between.  Whatever they do, the pointer of a user stands where the last result of that user says.
So an answer that is credited to a question was given to a prompt that showed it.

## Main Definitions

* `Flow.PointsTo` - the pointer of a user stands where a result says
* `Event`, `Flow.Step`, `Flow.Conversation` - what happens to a store, and what happened so far
* `lastResult?` - the last result of a user since the last reset
* `Flow.Credits` - a turn credits an answer to a question

## Main Statements

* `Flow.pointsTo_of_processTurn` - one turn
* `Flow.credited_as_prompted` - a whole conversation
-/

namespace Questionnaire

/-- A result asks a question of a catalog. -/
def TurnResult.Shows (r : TurnResult) (q : Question) : Prop :=
  r.kind = .prompt ∧ ∃ stage channel, r.question = some (State.present stage channel q)

namespace Flow

/-! ## One turn -/

/-- The pointer of a user stands where a result says. -/
def PointsTo (c : Catalog) (m : MemoryStore) (user : String) (r : TurnResult) : Prop :=
  match r.kind with
  | .prompt => ∃ p q, m.pointer? user = some p ∧ p.status = .active ∧
      p.sectionKey = r.sectionKey ∧ p.position = q.qid ∧ c.Holds q ∧ r.Shows q
  | .handoff => m.pointer? user = none
  | .terminal => ∃ p, m.pointer? user = some p ∧ p.isTerminal = true

/-- The pointer of a user, if there is one, is at the end or at a question of the catalog. -/
def IsRegular (c : Catalog) (m : MemoryStore) (user : String) : Prop :=
  ∀ p, m.pointer? user = some p →
    p.isTerminal = true ∨ p.status = .active ∧ ∃ q, c.Holds q ∧ p.position = q.qid

theorem isRegular_of_pointsTo {c : Catalog} {m : MemoryStore} {user : String} {r : TurnResult}
    (h : PointsTo c m user r) : IsRegular c m user := by
  intro p hp
  unfold PointsTo at h
  split at h
  · obtain ⟨p', q, hp', hactive, -, hposition, hq, -⟩ := h
    rw [hp] at hp'
    cases hp'
    exact .inr ⟨hactive, q, hq, hposition⟩
  · rw [hp] at h
    cases h
  · obtain ⟨p', hp', hover⟩ := h
    rw [hp] at hp'
    cases hp'
    exact .inl hover

variable {f : Flow} {user : String} {channel : Json} {lead : String} {note : TurnNote}
  {w w' : World MemoryStore} {m : MemoryStore} {r : TurnResult} {p : Pointer} {q : Question}

theorem pointsTo_of_prompt {transitions : List FlowStatus} {parts : PromptParts} {stage : Stage}
    {c : Catalog}
    (h : prompt (State.present stage channel q) p.sectionKey transitions parts = .ok r)
    (hp : m.pointer? user = some p) (hactive : p.status = .active) (hq : c.Holds q)
    (hposition : p.position = q.qid) : PointsTo c m user r := by
  obtain ⟨output, -, h⟩ := Outcome.bind_eq_ok_iff.1 h
  cases h
  exact ⟨p, q, hp, hactive, rfl, hposition, hq, rfl, stage, channel, rfl⟩

/-- The same for a question that is viewed on its own. -/
theorem pointsTo_of_view {transitions : List FlowStatus} {parts : PromptParts} {c : Catalog}
    {view : NextQuestion} (hview : c.view q channel = .ok view)
    (h : prompt view p.sectionKey transitions parts = .ok r)
    (hp : m.pointer? user = some p) (hactive : p.status = .active) (hq : c.Holds q)
    (hposition : p.position = q.qid) : PointsTo c m user r := by
  obtain ⟨stage, -, hview⟩ := Outcome.bind_eq_ok_iff.1 hview
  cases hview
  exact pointsTo_of_prompt h hp hactive hq hposition

theorem pointsTo_of_terminal {transitions : List FlowStatus} {c : Catalog}
    (h : f.terminal transitions lead note = .ok r) (hp : m.pointer? user = some p)
    (hover : p.isTerminal = true) : PointsTo c m user r := by
  obtain ⟨closing, -, h⟩ := Outcome.bind_eq_ok_iff.1 h
  obtain ⟨output, -, h⟩ := Outcome.bind_eq_ok_iff.1 h
  cases h
  exact ⟨p, hp, hover⟩

/-- The question that is asked when a section is entered is one of the catalog. -/
theorem ask_of_entry {left attempts : Nat} {section_ stageKey qid : Json} {s : State}
    {nq : NextQuestion}
    (h : f.entry m user channel left attempts section_ = .ok (.ask s stageKey qid (.ok nq))) :
    ∃ stage q, f.catalog.Holds q ∧ nq = State.present stage channel q ∧ qid = q.qid := by
  obtain ⟨process, -, hoffer⟩ := Outcome.bind_eq_ok_iff.1 h
  obtain ⟨stored, -, hoffer⟩ := Outcome.bind_eq_ok_iff.1 hoffer
  obtain ⟨s', -, hoffer⟩ := Outcome.bind_eq_ok_iff.1 hoffer
  obtain ⟨next, hnext, hoffer⟩ := Outcome.bind_eq_ok_iff.1 hoffer
  cases next with
  | some e =>
    cases hoffer
    obtain ⟨stage, q, hq, rfl⟩ := State.nextQuestion?_eq_some hnext
    exact ⟨stage, q, hq, rfl, rfl⟩
  | none =>
    obtain ⟨complete, -, hoffer⟩ := Outcome.bind_eq_ok_iff.1 hoffer
    split at hoffer
    · cases hoffer
    · obtain ⟨missing, hmissing, hoffer⟩ := Outcome.bind_eq_ok_iff.1 hoffer
      cases missing with
      | nil => cases hoffer
      | cons q rest =>
        simp only [Outcome.pure_eq_ok, Except.ok.injEq, Entry.ask.injEq] at hoffer
        obtain ⟨rfl, rfl, rfl, hview⟩ := hoffer
        obtain ⟨stage, -, hview⟩ := Outcome.bind_eq_ok_iff.1 hview
        cases hview
        exact ⟨stage, q, State.mem_missingQuestions hmissing List.mem_cons_self, rfl, rfl⟩

/-- A section is not left while a question that may be asked is missing. -/
theorem asks_of_departure {s : State} (h : f.departure p s = .ok (some q)) :
    f.catalog.Asks q := by
  obtain ⟨complete, -, h⟩ := Outcome.bind_eq_ok_iff.1 h
  split at h
  · cases h
  · obtain ⟨missing, hmissing, h⟩ := Outcome.bind_eq_ok_iff.1 h
    cases missing with
    | nil => cases h
    | cons q' rest =>
      cases h
      exact State.asks_of_missingQuestions hmissing List.mem_cons_self

theorem holds_of_departure {s : State} (h : f.departure p s = .ok (some q)) :
    f.catalog.Holds q :=
  (asks_of_departure h).holds

theorem pointsTo_of_enter {left attempts : Nat} {target : Option Json}
    {transitions : List FlowStatus}
    (h : (f.enter user channel lead note left attempts target transitions).run w = (.ok r, w')) :
    PointsTo f.catalog w'.store user r := by
  revert r w'
  -- the result belongs to the section where the chain stops
  refine f.run_enter_induct user channel lead note
    (P := fun _ _ outcome => ∀ {r w'}, outcome = (.ok r, w') → PointsTo f.catalog w'.store user r)
    ?ends ?fails ?asks ?passes left attempts target transitions w
  case ends =>
    intro w transitions r w' h
    cases congrArg Prod.snd h
    exact pointsTo_of_terminal (congrArg Prod.fst h)
      (MemoryStore.pointer?_savePointer_self w.store user (ended w)) rfl
  case fails =>
    intro w transitions e sessions r w' h
    cases h
  case asks =>
    intro w transitions left attempts section_ s stageKey qid q hentry r w' h
    cases congrArg Prod.snd h
    obtain ⟨intro, -, h⟩ := Outcome.bind_eq_ok_iff.1 (congrArg Prod.fst h)
    obtain ⟨nq, hnq, hprompt⟩ := Outcome.bind_eq_ok_iff.1 h
    rw [hnq] at hentry
    obtain ⟨stage, q, hq, rfl, rfl⟩ := ask_of_entry hentry
    exact pointsTo_of_prompt (p := opened w section_ stageKey q.qid) hprompt
      (MemoryStore.pointer?_savePointer_self w.store user _) rfl hq rfl
  case passes =>
    intro w transitions _ _ section_ outcome _ ih r w' h
    exact ih h

theorem pointsTo_of_leave {s : State} {transitions : List FlowStatus}
    (hactive : p.status = .active)
    (h : (f.leave user p s transitions channel note).run w = (.ok r, w')) :
    PointsTo f.catalog w'.store user r := by
  obtain ⟨e, -, hr, -⟩ | ⟨q, hdeparture, hr, rfl⟩ | ⟨e, -, hr, -⟩ | ⟨lead, target, -, henter⟩ :=
    leave_cases h
  · cases hr
  · obtain ⟨view, hview, hprompt⟩ := Outcome.bind_eq_ok_iff.1 hr.symm
    exact pointsTo_of_view (p := p.advance q.qid q.stageKey) hview hprompt
      (MemoryStore.pointer?_savePointer_self w.store user _) hactive
      (holds_of_departure hdeparture) rfl
  · cases hr
  · exact pointsTo_of_enter henter

/-- The identifier of a question of the catalog is followed to that question. -/
theorem eq_of_questionAt (filed : Assoc.FiledBy Question.qid f.catalog.questions) {q' : Question}
    (hq' : f.catalog.Holds q') (hposition : p.position = q'.qid)
    (h : f.questionAt user p.position = .ok (some q)) : q = q' := by
  obtain ⟨e, he, rfl⟩ := hq'
  unfold questionAt at h
  split at h
  · obtain ⟨key, hkey, h⟩ := Outcome.bind_eq_ok_iff.1 h
    obtain ⟨-, rfl⟩ := (Json.asKey_eq_ok_iff _ _).1 hkey
    have hfound : f.catalog.question? p.position = some e.2 := by
      rw [hposition, filed.own e he]
      exact filed.valueAt?_of_mem he
    rw [hfound] at h
    cases h
    rfl
  · cases h

namespace IsRegular

/-- A pointer that stands in a section is active, and at a question of the catalog. -/
theorem of_stands (regular : IsRegular f.catalog m user) (stands : f.Stands m user p) :
    p.status = .active ∧ ∃ q, f.catalog.Holds q ∧ p.position = q.qid := by
  rcases regular p stands.pointer with hover | hactive
  · rw [stands.isActive] at hover
    cases hover
  · exact hactive

/-- It is followed to that question. -/
theorem of_questionAt (filed : Assoc.FiledBy Question.qid f.catalog.questions)
    (regular : IsRegular f.catalog m user) (stands : f.Stands m user p)
    (h : f.questionAt user p.position = .ok (some q)) :
    p.status = .active ∧ f.catalog.Holds q ∧ p.position = q.qid := by
  obtain ⟨hactive, q', hq', hposition⟩ := regular.of_stands stands
  cases eq_of_questionAt filed hq' hposition h
  exact ⟨hactive, hq', hposition⟩

end IsRegular

theorem pointer?_cleared (m : MemoryStore) (user : String) (section_ : Json) (stored : Fields) :
    (cleared m user section_ stored).pointer? user = m.pointer? user := by
  unfold cleared
  split <;> rfl

/-- A question about a table that goes on is shown as it is, and at most rows are reported. -/
theorem collected_of_taking {s : State} {text : String} {c : Collection}
    (h : f.taking s q text channel = .ok (.collected c)) :
    f.catalog.view q channel = .ok c.view ∧ (c.note = .nothing ∨ ∃ n, c.note = .tableRows n) := by
  unfold taking at h
  split at h
  · obtain ⟨example_, -, h⟩ := Outcome.bind_eq_ok_iff.1 h
    obtain ⟨view, hview, h⟩ := Outcome.bind_eq_ok_iff.1 h
    rw [hview]
    split at h
    · split at h
      · obtain ⟨written, -, h⟩ := Outcome.bind_eq_ok_iff.1 h
        cases h
        exact ⟨rfl, .inl rfl⟩
      · obtain ⟨applied, -, h⟩ := Outcome.bind_eq_ok_iff.1 h
        cases h
    · obtain ⟨more, -, h⟩ := Outcome.bind_eq_ok_iff.1 h
      cases more with
      | none =>
        obtain ⟨written, -, h⟩ := Outcome.bind_eq_ok_iff.1 h
        cases h
        exact ⟨rfl, .inl rfl⟩
      | some more =>
        obtain ⟨written, -, h⟩ := Outcome.bind_eq_ok_iff.1 h
        cases h
        exact ⟨rfl, .inr ⟨_, rfl⟩⟩
  · obtain ⟨outcome, -, h⟩ := Outcome.bind_eq_ok_iff.1 h
    cases outcome <;> cases h

theorem pointsTo_of_asking {error : Option TurnError} (h : f.asking p q channel error = .ok r)
    (hp : m.pointer? user = some p) (hactive : p.status = .active) (hq : f.catalog.Holds q)
    (hposition : p.position = q.qid) : PointsTo f.catalog m user r := by
  obtain ⟨view, hview, h⟩ := Outcome.bind_eq_ok_iff.1 h
  exact pointsTo_of_view hview h hp hactive hq hposition

theorem pointsTo_of_carryAcceptance {a : Acceptance} {s : State} {applied : Applied}
    {extra : Fields} (hkey : p.sectionKey.isKey = true) (hactive : p.status = .active)
    (hjudge : f.judge p q extra s applied channel = .ok (.inr a))
    (h : (f.carryAcceptance user p a channel).run w = (.ok r, w')) :
    PointsTo f.catalog w'.store user r := by
  obtain ⟨-, hr, rfl⟩ | ⟨nq, -, hnext, hr, rfl⟩ | ⟨-, -, hleave⟩ := acceptance_cases hkey h
  · obtain ⟨output, -, hr⟩ := Outcome.bind_eq_ok_iff.1 hr.symm
    cases hr
    exact MemoryStore.pointer?_deletePointer_self _ user
  · obtain ⟨intro, -, hprompt⟩ := Outcome.bind_eq_ok_iff.1 hr.symm
    obtain ⟨derived, pending, notes, passed⟩ := passed_of_judge hjudge
    have hq := passed.next
    rw [hnext] at hq
    -- the pointer moves to the question that was selected, and this one is worded
    obtain ⟨stage, q', hq', rfl⟩ := State.nextQuestion?_eq_some hq
    exact pointsTo_of_prompt (p := p.advance q'.qid _) hprompt
      (MemoryStore.pointer?_savePointer_self _ user _) hactive hq' rfl
  · exact pointsTo_of_leave hactive hleave

theorem pointsTo_of_carryOut {answer : Json} {d : Decision}
    (filed : Assoc.FiledBy Question.qid f.catalog.questions)
    (regular : IsRegular f.catalog w.store user)
    (grounded : d.Grounded f w.store user answer channel)
    (h : (f.carryOut user channel d).run w = (.ok r, w')) :
    PointsTo f.catalog w'.store user r := by
  cases d with
  | closed =>
    obtain ⟨p, hp, hover⟩ := grounded
    rw [run_closed] at h
    cases congrArg Prod.snd h
    exact pointsTo_of_terminal (congrArg Prod.fst h) hp hover
  | begin isLost =>
    rw [run_begin, run_start] at h
    exact pointsTo_of_enter h
  | redirect p s e =>
    obtain ⟨stands, -, hnext, -⟩ := grounded
    obtain ⟨hactive, -⟩ := regular.of_stands stands
    rw [run_redirect] at h
    cases congrArg Prod.snd h
    obtain ⟨intro, -, hprompt⟩ := Outcome.bind_eq_ok_iff.1 (congrArg Prod.fst h)
    obtain ⟨stage, q, hq, rfl⟩ := State.nextQuestion?_eq_some hnext
    exact pointsTo_of_prompt (p := p.advance q.qid _) hprompt
      (MemoryStore.pointer?_savePointer_self w.store user _) hactive hq rfl
  | depart p s => exact pointsTo_of_leave (regular.of_stands grounded).1 h
  | reask p q =>
    obtain ⟨stands, hquestion⟩ := grounded
    obtain ⟨hactive, hq, hposition⟩ := regular.of_questionAt filed stands hquestion
    rw [run_reask] at h
    cases congrArg Prod.snd h
    exact pointsTo_of_asking (congrArg Prod.fst h) stands.pointer hactive hq hposition
  | reject p stored q error =>
    obtain ⟨stands, hquestion, -⟩ := grounded
    obtain ⟨hactive, hq, hposition⟩ := regular.of_questionAt filed stands hquestion
    rw [run_reject stands.isKey] at h
    cases congrArg Prod.snd h
    have hp : (cleared w.store user p.sectionKey stored).pointer? user = some p := by
      rw [pointer?_cleared]
      exact stands.pointer
    exact pointsTo_of_asking (congrArg Prod.fst h) hp hactive hq hposition
  | collect p q c =>
    obtain ⟨stands, hquestion, s, text, htaken⟩ := grounded
    obtain ⟨hactive, hq, hposition⟩ := regular.of_questionAt filed stands hquestion
    rw [run_collect stands.isKey] at h
    cases congrArg Prod.snd h
    obtain ⟨text, -, hprompt⟩ := Outcome.bind_eq_ok_iff.1 (congrArg Prod.fst h)
    obtain ⟨hview, -⟩ := collected_of_taking htaken
    exact pointsTo_of_view hview hprompt stands.pointer hactive hq hposition
  | accept p q a =>
    obtain ⟨stands, -, s, text, s', applied, accepts⟩ := grounded
    exact pointsTo_of_carryAcceptance stands.isKey (regular.of_stands stands).1 accepts.judged h

/-- After a turn of a user whose pointer was at the end or at a question, it stands where the result
says. -/
theorem pointsTo_of_processTurn {answer : Json}
    (filed : Assoc.FiledBy Question.qid f.catalog.questions)
    (regular : IsRegular f.catalog w.store user)
    (h : (f.processTurn user answer channel).run w = (.ok r, w')) :
    PointsTo f.catalog w'.store user r := by
  obtain ⟨d, hdecide, hrun, -⟩ := told_of_processTurn h
  exact pointsTo_of_carryOut filed regular (grounded_of_decide hdecide) hrun

/-- A turn credits an answer to a question: it applies a value to the field of the question, or adds
rows to its table. -/
def Credits (f : Flow) (m : MemoryStore) (user : String) (answer channel : Json) (q : Question) :
    Prop :=
  (∃ p a, f.decide m user answer channel = .ok (.accept p q a)) ∨
    ∃ p c n, f.decide m user answer channel = .ok (.collect p q c) ∧ c.note = .tableRows n

/-- The question that an answer is credited to is the one that the pointer stands at. -/
theorem questionAt_of_credits {answer : Json} (h : f.Credits m user answer channel q) :
    ∃ p, f.Stands m user p ∧ f.questionAt user p.position = .ok (some q) := by
  rcases h with ⟨p, a, hdecide⟩ | ⟨p, c, n, hdecide, -⟩
  · obtain ⟨stands, hquestion, -⟩ := grounded_of_decide hdecide
    exact ⟨p, stands, hquestion⟩
  · obtain ⟨stands, hquestion, -⟩ := grounded_of_decide hdecide
    exact ⟨p, stands, hquestion⟩

/-- A result after which the pointer is followed to a question has asked that question. -/
theorem shows_of_pointsTo (filed : Assoc.FiledBy Question.qid f.catalog.questions)
    (h : PointsTo f.catalog m user r) (stands : f.Stands m user p)
    (hquestion : f.questionAt user p.position = .ok (some q)) : r.Shows q := by
  unfold PointsTo at h
  split at h
  · obtain ⟨p', q', hp', -, -, hposition, hq', hshows⟩ := h
    rw [stands.pointer] at hp'
    cases hp'
    cases eq_of_questionAt filed hq' hposition hquestion
    exact hshows
  · rw [stands.pointer] at h
    cases h
  · obtain ⟨p', hp', hover⟩ := h
    rw [stands.pointer] at hp'
    cases hp'
    rw [stands.isActive] at hover
    cases hover

/-- A turn that reports a value has credited it to the question of its field. -/
theorem credits_of_applied {answer : Json} {fields derived : Fields} {n : Nat}
    (h : (f.processTurn user answer channel).run w = (.ok r, w'))
    (hnote : r.note = .applied fields derived n) :
    ∃ q v, f.Credits w.store user answer channel q ∧ fields = [(q.fieldKey, v)] := by
  obtain ⟨d, hdecide, -, tells⟩ := told_of_processTurn h
  rw [tells.note] at hnote
  cases d with
  | accept p q a =>
    obtain ⟨-, -, s, text, s', applied, accepts⟩ := grounded_of_decide hdecide
    obtain ⟨derived', pending, notes, passed⟩ := passed_of_judge accepts.judged
    obtain ⟨v, hv, -⟩ := applyValue_of_taking accepts.taken
    have hfields := passed.note.symm.trans hnote
    cases hfields
    exact ⟨q, applied.value, .inl ⟨p, a, hdecide⟩, by rw [(applied_of_applyValue hv).1]⟩
  | collect p q c =>
    obtain ⟨-, -, s, text, htaken⟩ := grounded_of_decide hdecide
    have hcollected : c.note = .applied fields derived n := hnote
    obtain ⟨-, hnothing | ⟨rows, hrows⟩⟩ := collected_of_taking htaken
    · rw [hnothing] at hcollected
      cases hcollected
    · rw [hrows] at hcollected
      cases hcollected
  | _ => cases hnote

/-- A turn that reports rows has credited them to a question. -/
theorem credits_of_tableRows {answer : Json} {n : Nat}
    (h : (f.processTurn user answer channel).run w = (.ok r, w'))
    (hnote : r.note = .tableRows n) : ∃ q, f.Credits w.store user answer channel q := by
  obtain ⟨d, hdecide, -, tells⟩ := told_of_processTurn h
  rw [tells.note] at hnote
  cases d with
  | accept p q a => exact ⟨q, .inl ⟨p, a, hdecide⟩⟩
  | collect p q c => exact ⟨q, .inr ⟨p, c, n, hdecide, hnote⟩⟩
  | _ => cases hnote

end Flow

/-! ## Many turns -/

/-- What happens to a store. -/
inductive Event where
  /-- A turn of a user has returned a result. -/
  | turn (user : String) (r : TurnResult)
  /-- The pointer of a user is forgotten. -/
  | reset (user : String)
  /-- Another program writes collected values. -/
  | write (user : String) (scope : Json) (patch : Fields)

/-- The last result of a user since the last reset; events are listed from the last to the first. -/
def lastResult? (user : String) : List Event → Option TurnResult
  | [] => none
  | .turn other r :: log => if other = user then some r else lastResult? user log
  | .reset other :: log => if other = user then none else lastResult? user log
  | .write _ _ _ :: log => lastResult? user log

namespace Flow

/-- One event, at any time. -/
inductive Step (f : Flow) : World MemoryStore → Event → World MemoryStore → Prop where
  /-- A turn returns. -/
  | turn {w w' : World MemoryStore} {user : String} {answer channel : Json} {now : String}
      {r : TurnResult}
      (h : (f.processTurn user answer channel).run { w with now := now } = (.ok r, w')) :
      Step f w (.turn user r) w'
  /-- A pointer is forgotten. -/
  | reset {w w' : World MemoryStore} {user : String}
      (h : (Flow.reset user : TurnM MemoryStore Unit).run w = (.ok (), w')) :
      Step f w (.reset user) w'
  /-- Another program writes. -/
  | write {w : World MemoryStore} {m : MemoryStore} {user : String} {scope : Json}
      {patch : Fields} (h : Store.setFields w.store user scope patch = .ok m) :
      Step f w (.write user scope patch) { w with store := m }

/-- What has happened since the store was empty, the last event first. -/
inductive Conversation (f : Flow) : List Event → World MemoryStore → Prop where
  /-- The store is empty. -/
  | start (w : World MemoryStore) (h : w.store = {}) : Conversation f [] w
  /-- One more event. -/
  | step {log : List Event} {w w' : World MemoryStore} {e : Event} (talk : Conversation f log w)
      (h : f.Step w e w') : Conversation f (e :: log) w'

/-- Every pointer stands where the last result of its user says. -/
def Tracks (c : Catalog) (log : List Event) (m : MemoryStore) : Prop :=
  ∀ user, match lastResult? user log with
    | none => m.pointer? user = none
    | some r => PointsTo c m user r

variable {f : Flow} {w w' : World MemoryStore} {log : List Event} {e : Event}

theorem pointsTo_congr {c : Catalog} {m m' : MemoryStore} {user : String} {r : TurnResult}
    (h : m'.pointer? user = m.pointer? user) : PointsTo c m' user r ↔ PointsTo c m user r := by
  unfold PointsTo
  rw [h]

theorem isRegular_of_tracks {c : Catalog} {m : MemoryStore} (tracks : Tracks c log m)
    (user : String) : IsRegular c m user := by
  have h := tracks user
  split at h
  · intro p hp
    rw [h] at hp
    cases hp
  · exact isRegular_of_pointsTo h

/-- A log that says nothing new of a user leaves its pointer where it is. -/
theorem tracks_of_pointer? {c : Catalog} {m m' : MemoryStore} {log log' : List Event}
    {user : String} (h : m'.pointer? user = m.pointer? user)
    (hlast : lastResult? user log' = lastResult? user log)
    (tracks : match lastResult? user log with
      | none => m.pointer? user = none
      | some r => PointsTo c m user r) :
    match lastResult? user log' with
      | none => m'.pointer? user = none
      | some r => PointsTo c m' user r := by
  rw [hlast]
  split at tracks
  · rw [h]
    exact tracks
  · exact (pointsTo_congr h).2 tracks

theorem tracks_step (filed : Assoc.FiledBy Question.qid f.catalog.questions)
    (tracks : Tracks f.catalog log w.store) (h : f.Step w e w') :
    Tracks f.catalog (e :: log) w'.store := by
  intro other
  cases h with
  | @turn _ user answer channel now r hturn =>
    by_cases hother : user = other
    · subst hother
      -- the turn of this user gives the last result
      have hlast : lastResult? user (.turn user r :: log) = some r := if_pos rfl
      rw [hlast]
      exact pointsTo_of_processTurn (w := { w with now := now }) filed
        (isRegular_of_tracks tracks user) hturn
    · have hlast : lastResult? other (.turn user r :: log) = lastResult? other log := if_neg hother
      exact tracks_of_pointer? ((elsewhere_of_processTurn hturn).pointer other (Ne.symm hother))
        hlast (tracks other)
  | @reset _ user hreset =>
    cases congrArg Prod.snd hreset
    by_cases hother : user = other
    · subst hother
      -- a reset forgets the result and the pointer
      have hlast : lastResult? user (.reset user :: log) = none := if_pos rfl
      rw [hlast]
      exact MemoryStore.pointer?_deletePointer_self w.store user
    · have hlast : lastResult? other (.reset user :: log) = lastResult? other log := if_neg hother
      refine tracks_of_pointer? ?_ hlast (tracks other)
      exact (MemoryStore.Elsewhere.deletePointer w.store user).pointer other (Ne.symm hother)
  | @write m user scope patch hwrite =>
    obtain ⟨key, hkey, hwrite⟩ := Outcome.bind_eq_ok_iff.1 hwrite
    cases hwrite
    -- no write reaches a pointer
    have hlast : lastResult? other (.write user scope patch :: log) = lastResult? other log := rfl
    exact tracks_of_pointer? (m := w.store) rfl hlast (tracks other)

theorem tracks_of_conversation (filed : Assoc.FiledBy Question.qid f.catalog.questions)
    (talk : f.Conversation log w) : Tracks f.catalog log w.store := by
  induction talk with
  | start w h =>
    intro user
    have hnone : w.store.pointer? user = none := by rw [h]; rfl
    exact hnone
  | step talk h ih => exact tracks_step filed ih h

/-- In a conversation with an accepted catalog every pointer stands where the last result of its
user says, and an answer is only credited to the question that this result has asked. -/
theorem credited_as_prompted (accepted : f.catalog.Accepted) (talk : f.Conversation log w) :
    (∀ user r, lastResult? user log = some r → PointsTo f.catalog w.store user r) ∧
    ∀ user answer channel now r w',
      (f.processTurn user answer channel).run { w with now := now } = (.ok r, w') →
      (∀ q, f.Credits w.store user answer channel q →
        ∃ last, lastResult? user log = some last ∧ last.Shows q) ∧
      (∀ fields derived n, r.note = .applied fields derived n →
        ∃ q v, f.Credits w.store user answer channel q ∧ fields = [(q.fieldKey, v)]) ∧
      ∀ n, r.note = .tableRows n → ∃ q, f.Credits w.store user answer channel q := by
  have filed := Catalog.filedBy_questions accepted
  have tracks := tracks_of_conversation filed talk
  refine ⟨fun user r hlast => ?_, fun user answer channel now r w' h => ⟨fun q hcredits => ?_,
    fun fields derived n hnote => ?_, fun n hnote => ?_⟩⟩
  · have hpoints := tracks user
    rw [hlast] at hpoints
    exact hpoints
  · obtain ⟨p, stands, hquestion⟩ := questionAt_of_credits hcredits
    have hpoints := tracks user
    cases hlast : lastResult? user log with
    | none =>
      -- without a result there is no pointer, so nothing is credited
      rw [hlast, stands.pointer] at hpoints
      cases hpoints
    | some last =>
      rw [hlast] at hpoints
      exact ⟨last, rfl, shows_of_pointsTo filed hpoints stands hquestion⟩
  · exact credits_of_applied (w := { w with now := now }) h hnote
  · exact credits_of_tableRows (w := { w with now := now }) h hnote

/-- A catalog with one question. -/
def greeting : Json :=
  .obj [
    ("questions", .arr [.obj [("qid", .str "Q1"), ("field_key", .str "name"),
      ("prompt", .str "Name?")]]),
    ("stages", .arr [.obj [("stage_key", .str "s"), ("question_ids", .arr [.str "Q1"])]]),
    ("processes", .arr [.obj [("process_key", .str "01"), ("stage_keys", .arr [.str "s"])]])]

/-- A world in which nothing has happened. -/
def untouchedWorld : World MemoryStore where
  store := {}
  now := "2000-01-01T00:00:00+00:00"

/-- The first turn of a conversation leaves the pointer at the question that it asks. -/
theorem credited_as_prompted_greeting : ∃ f r w', f.catalog.Accepted ∧
    Conversation f [.turn "u1" r] w' ∧ r.kind = .prompt ∧
      PointsTo f.catalog w'.store "u1" r := by
  have evaluated : (match Catalog.ofJson greeting "catalog.json" with
      | .error _ => false
      | .ok (c, _) =>
        match ((Flow.mk c none).processTurn "u1" .null .null).run untouchedWorld with
        | (.error _, _) => false
        | (.ok r, _) => r.kind = .prompt) = true := by
    decide +kernel
  split at evaluated
  · cases evaluated
  · rename_i c warnings hc
    split at evaluated
    · cases evaluated
    · rename_i r w' hrun
      have accepted : c.Accepted := ⟨greeting, "catalog.json", warnings, hc⟩
      have talk : Conversation (Flow.mk c none) [.turn "u1" r] w' :=
        .step (.start untouchedWorld rfl) (.turn hrun)
      exact ⟨Flow.mk c none, r, w', accepted, talk, of_decide_eq_true evaluated,
        (credited_as_prompted accepted talk).1 "u1" r rfl⟩

end Flow

end Questionnaire
