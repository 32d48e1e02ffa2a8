import Questionnaire.Proofs.Turn.Conversation
import Questionnaire.Proofs.Turn.Stored

/-!
# Where a pointer stands

Every turn, also one that fails, leaves the pointer of its user where it was, nowhere, at the end,
or at a question that may be asked.

## Main Definitions

* `Flow.StandsAsked` - a pointer stands nowhere, at the end, or at a question that may be asked

## Main Statements

* `Flow.standsAsked_of_processTurn` - every turn keeps this
* `Flow.StandsAsked.asks` - so an answer is only looked at where a question may be asked
-/

namespace Questionnaire.Flow

/-- The pointer of a user stands nowhere, at the end, or at a question that may be asked. -/
def StandsAsked (c : Catalog) (m : MemoryStore) (user : String) : Prop :=
  ∀ p, m.pointer? user = some p → p.isTerminal = false → ∃ q, c.Asks q ∧ p.position = q.qid

variable {f : Flow} {user : String} {m m' : MemoryStore} {w w' : World MemoryStore} {p : Pointer}
  {q : Question} {channel : Json} {lead : String} {note : TurnNote} {r : Except Fault TurnResult}

theorem standsAsked_congr {c : Catalog} (h : m'.pointer? user = m.pointer? user)
    (stands : StandsAsked c m user) : StandsAsked c m' user := by
  unfold StandsAsked
  rw [h]
  exact stands

theorem standsAsked_of_none {c : Catalog} (h : m.pointer? user = none) : StandsAsked c m user := by
  intro p hp
  rw [h] at hp
  cases hp

/-- A pointer that is forgotten stands nowhere. -/
theorem standsAsked_deletePointer {c : Catalog} (stands : StandsAsked c m user) (other : String) :
    StandsAsked c (m.deletePointer other) user := by
  intro p hp hactive
  rw [MemoryStore.pointer?_deletePointer] at hp
  split at hp
  · cases hp
  · exact stands p hp hactive

theorem standsAsked_savePointer {c : Catalog} (asks : c.Asks q) (hposition : p.position = q.qid) :
    StandsAsked c (m.savePointer user p) user := by
  intro p' hp' _
  rw [MemoryStore.pointer?_savePointer_self] at hp'
  cases hp'
  exact ⟨q, asks, hposition⟩

/-- A section that is entered asks for what may be asked. -/
theorem asks_of_entry {left attempts : Nat} {section_ stageKey qid : Json} {s : State}
    {nq : Except Fault NextQuestion}
    (h : f.entry m user channel left attempts section_ = .ok (.ask s stageKey qid nq)) :
    ∃ q, f.catalog.Asks q ∧ qid = q.qid := by
  obtain ⟨process, -, h⟩ := Outcome.bind_eq_ok_iff.1 h
  obtain ⟨stored, -, h⟩ := Outcome.bind_eq_ok_iff.1 h
  obtain ⟨s', -, h⟩ := Outcome.bind_eq_ok_iff.1 h
  obtain ⟨next, hnext, h⟩ := Outcome.bind_eq_ok_iff.1 h
  cases next with
  | some e =>
    cases h
    obtain ⟨stage, q, asks, rfl⟩ := State.asks_of_nextQuestion? hnext
    exact ⟨q, asks, rfl⟩
  | none =>
    obtain ⟨complete, -, h⟩ := Outcome.bind_eq_ok_iff.1 h
    split at h
    · cases h
    · obtain ⟨missing, hmissing, h⟩ := Outcome.bind_eq_ok_iff.1 h
      cases missing with
      | nil => cases h
      | cons q rest =>
        cases h
        exact ⟨q, State.asks_of_missingQuestions hmissing List.mem_cons_self, rfl⟩

theorem standsAsked_of_enter {left attempts : Nat} {target : Option Json}
    {transitions : List FlowStatus} (stands : StandsAsked f.catalog w.store user)
    (h : (f.enter user channel lead note left attempts target transitions).run w = (r, w')) :
    StandsAsked f.catalog w'.store user := by
  -- sections with nothing to ask do not move the pointer, and where the chain stops it is saved
  refine f.run_enter_induct user channel lead note
    (P := fun w _ outcome => StandsAsked f.catalog w.store user → ∀ {r w'}, outcome = (r, w') →
      StandsAsked f.catalog w'.store user)
    ?ends ?fails ?asks ?passes left attempts target transitions w stands h
  case ends =>
    intro w _ _ r w' h
    cases h
    intro p hp hactive
    rw [MemoryStore.pointer?_savePointer_self] at hp
    cases hp
    cases hactive
  case fails =>
    intro w _ e sessions stands r w' h
    cases h
    exact stands
  case asks =>
    intro w _ left attempts section_ s stageKey qid nq hentry _ r w' h
    cases h
    obtain ⟨q, asks, rfl⟩ := asks_of_entry hentry
    exact standsAsked_savePointer asks rfl
  case passes =>
    intro w _ left attempts section_ outcome _ ih stands r w' h
    exact ih (standsAsked_congr rfl stands) h

theorem standsAsked_of_leave {s : State} {transitions : List FlowStatus}
    (stands : StandsAsked f.catalog w.store user)
    (h : (f.leave user p s transitions channel note).run w = (r, w')) :
    StandsAsked f.catalog w'.store user := by
  obtain ⟨e, -, -, rfl⟩ | ⟨q, hdeparture, -, rfl⟩ | ⟨e, -, -, rfl⟩ | ⟨lead, target, -, henter⟩ :=
    leave_cases h
  · exact stands
  · exact standsAsked_savePointer (asks_of_departure hdeparture) rfl
  · exact standsAsked_congr rfl stands
  · exact standsAsked_of_enter (w := departed w user p) (standsAsked_congr rfl stands) henter

theorem standsAsked_of_carryAcceptance {a : Acceptance} {s : State} {extra : Fields}
    {applied : Applied} (hkey : p.sectionKey.isKey = true)
    (judged : f.judge p q extra s applied channel = .ok (.inr a))
    (stands : StandsAsked f.catalog w.store user)
    (h : (f.carryAcceptance user p a channel).run w = (r, w')) :
    StandsAsked f.catalog w'.store user := by
  obtain ⟨derived, pending, notes, passed⟩ := passed_of_judge judged
  obtain ⟨-, -, rfl⟩ | ⟨nq, -, hnext, -, rfl⟩ | ⟨-, -, hleave⟩ := acceptance_cases hkey h
  · exact standsAsked_of_none (MemoryStore.pointer?_deletePointer_self _ user)
  · have hselected := passed.next
    rw [hnext] at hselected
    obtain ⟨stage, q', asks, rfl⟩ := State.asks_of_nextQuestion? hselected
    exact standsAsked_savePointer asks rfl
  · exact standsAsked_of_leave
      (w := { w with store := w.store.patched user p.sectionKey a.patch })
      (standsAsked_congr rfl stands) hleave

theorem standsAsked_of_carryOut {answer : Json} {d : Decision}
    (grounded : d.Grounded f w.store user answer channel)
    (stands : StandsAsked f.catalog w.store user)
    (h : (f.carryOut user channel d).run w = (r, w')) : StandsAsked f.catalog w'.store user := by
  cases d with
  | closed =>
    rw [run_closed] at h
    cases h
    exact stands
  | begin isLost =>
    rw [run_begin, run_start] at h
    cases isLost with
    | false => exact standsAsked_of_enter stands h
    | true =>
      exact standsAsked_of_enter (w := { w with store := w.store.deletePointer user })
        (standsAsked_of_none (MemoryStore.pointer?_deletePointer_self w.store user)) h
  | redirect p s e =>
    rw [run_redirect] at h
    cases h
    obtain ⟨stage, q, asks, rfl⟩ := State.asks_of_nextQuestion? grounded.2.2.1
    exact standsAsked_savePointer asks rfl
  | depart p s => exact standsAsked_of_leave stands h
  | reask p q =>
    rw [run_reask] at h
    cases h
    exact stands
  | reject p stored q error =>
    rw [run_reject grounded.1.isKey] at h
    cases h
    exact standsAsked_congr (pointer?_cleared _ _ _ _) stands
  | collect p q c =>
    rw [run_collect grounded.1.isKey] at h
    cases h
    exact standsAsked_congr rfl stands
  | accept p q a =>
    obtain ⟨hstands, -, s, text, s', applied, accepts⟩ := grounded
    exact standsAsked_of_carryAcceptance hstands.isKey accepts.judged stands h

/-- Every turn leaves the pointer of its user nowhere, at the end, or where a question may be
asked. -/
theorem standsAsked_of_processTurn {answer : Json} (stands : StandsAsked f.catalog w.store user)
    (h : (f.processTurn user answer channel).run w = (r, w')) :
    StandsAsked f.catalog w'.store user := by
  obtain ⟨e, -, -, rfl⟩ | ⟨d, hdecide, hrun⟩ := turn_cases h
  · exact stands
  · exact standsAsked_of_carryOut (grounded_of_decide hdecide) stands hrun

/-- The question that such a pointer stands at may be asked. -/
theorem StandsAsked.asks (stands : StandsAsked f.catalog m user)
    (filed : Assoc.FiledBy Question.qid f.catalog.questions) (hstands : f.Stands m user p)
    (hquestion : f.questionAt user p.position = .ok (some q)) : f.catalog.Asks q := by
  obtain ⟨q', asks, hposition⟩ := stands p hstands.pointer hstands.isActive
  rw [eq_of_questionAt filed asks.holds hposition hquestion]
  exact asks

end Questionnaire.Flow
