import Questionnaire.Proofs.Turn.Decision
import Questionnaire.Proofs.Turn.Sections

/-!
# What the result of a turn tells

The error, the flag of an outdated pointer and the note of a result are those of the decision of its
turn, whatever sections the turn goes through before it ends.

## Main Definitions

* `Decision.error?`, `Decision.isStale`, `Decision.note` - what a decision has the result tell

## Main Statements

* `Flow.told_of_processTurn` - the result tells what the decision says
* `Flow.elsewhere_of_processTurn` - a turn leaves all other users alone
-/

namespace Questionnaire

open MemoryStore (Elsewhere)

namespace Decision

/-- Why the question is asked again. -/
def error? : Decision → Option TurnError
  | .reject _ _ _ error => some error
  | _ => none

/-- Another question than that of the pointer is expected. -/
def isStale : Decision → Bool
  | .redirect _ _ _ => true
  | _ => false

/-- What the turn does. -/
def note : Decision → TurnNote
  | .collect _ _ c => c.note
  | .accept _ _ a => a.note
  | _ => .nothing

end Decision

/-- What a result tells besides its wording. -/
structure TurnResult.Tells (r : TurnResult) (error : Option TurnError) (isStale : Bool)
    (note : TurnNote) : Prop where
  /-- Why the question is asked again. -/
  error : r.error = error
  /-- The pointer was out of date. -/
  isStale : r.isStale = isStale
  /-- What the turn did. -/
  note : r.note = note

namespace Flow

variable {f : Flow} {user : String} {channel : Json} {lead : String} {note : TurnNote}
  {w w' : World MemoryStore} {r : TurnResult}

/-! ## Results -/

theorem tells_of_prompt {q : NextQuestion} {section_ : Json} {transitions : List FlowStatus}
    {parts : PromptParts} (h : prompt q section_ transitions parts = .ok r) :
    r.Tells parts.error parts.isStale parts.note := by
  obtain ⟨output, -, h⟩ := Outcome.bind_eq_ok_iff.1 h
  cases h
  exact ⟨rfl, rfl, rfl⟩

theorem tells_of_terminal {transitions : List FlowStatus}
    (h : f.terminal transitions lead note = .ok r) : r.Tells none false note := by
  obtain ⟨closing, -, h⟩ := Outcome.bind_eq_ok_iff.1 h
  obtain ⟨output, -, h⟩ := Outcome.bind_eq_ok_iff.1 h
  cases h
  exact ⟨rfl, rfl, rfl⟩

theorem tells_of_handoff {section_ : Json} {fired : List FiredHandoff}
    {transitions : List FlowStatus}
    (h : f.handoff section_ fired transitions note = .ok r) : r.Tells none false note := by
  obtain ⟨output, -, h⟩ := Outcome.bind_eq_ok_iff.1 h
  cases h
  exact ⟨rfl, rfl, rfl⟩

theorem tells_of_opening {s : State} {section_ stageKey : Json} {q : Except Fault NextQuestion}
    {transitions : List FlowStatus}
    (h : f.opening s section_ stageKey q channel transitions lead note = .ok r) :
    r.Tells none false note := by
  obtain ⟨intro, -, h⟩ := Outcome.bind_eq_ok_iff.1 h
  obtain ⟨q, -, h⟩ := Outcome.bind_eq_ok_iff.1 h
  exact tells_of_prompt h

theorem tells_of_enter {left attempts : Nat} {target : Option Json}
    {transitions : List FlowStatus}
    (h : (f.enter user channel lead note left attempts target transitions).run w = (.ok r, w')) :
    r.Tells none false note := by
  revert r w'
  refine f.run_enter_induct user channel lead note
    (P := fun _ _ outcome => ∀ {r w'}, outcome = (.ok r, w') → r.Tells none false note)
    ?ends ?fails ?asks ?passes left attempts target transitions w
  case ends =>
    intro w transitions r w' h
    exact tells_of_terminal (congrArg Prod.fst h)
  case fails =>
    intro w transitions e sessions r w' h
    cases h
  case asks =>
    intro w transitions left attempts section_ s stageKey qid q _ r w' h
    exact tells_of_opening (congrArg Prod.fst h)
  case passes =>
    intro w transitions _ _ section_ outcome _ ih r w' h
    exact ih h

theorem tells_of_leave {p : Pointer} {s : State} {transitions : List FlowStatus}
    (h : (f.leave user p s transitions channel note).run w = (.ok r, w')) :
    r.Tells none false note := by
  obtain ⟨e, -, hr, -⟩ | ⟨q, -, hr, -⟩ | ⟨e, -, hr, -⟩ | ⟨lead, target, -, henter⟩ :=
    leave_cases h
  · cases hr
  · obtain ⟨view, -, hprompt⟩ := Outcome.bind_eq_ok_iff.1 hr.symm
    exact tells_of_prompt hprompt
  · cases hr
  · exact tells_of_enter henter

theorem tells_of_asking {p : Pointer} {q : Question} {error : Option TurnError}
    (h : f.asking p q channel error = .ok r) : r.Tells error false .nothing := by
  obtain ⟨view, -, h⟩ := Outcome.bind_eq_ok_iff.1 h
  exact tells_of_prompt h

theorem tells_of_carryAcceptance {p : Pointer} {a : Acceptance}
    (h : (f.carryAcceptance user p a channel).run w = (.ok r, w')) : r.Tells none false a.note := by
  obtain ⟨_, w₁, -, h⟩ := TurnM.run_bind_eq_ok_iff.1 h
  split at h
  · obtain ⟨_, w₂, -, h⟩ := TurnM.run_bind_eq_ok_iff.1 h
    obtain ⟨_, w₃, -, h⟩ := TurnM.run_bind_eq_ok_iff.1 h
    rw [TurnM.run_lift] at h
    exact tells_of_handoff (congrArg Prod.fst h)
  · split at h
    · obtain ⟨_, w₂, -, h⟩ := TurnM.run_bind_eq_ok_iff.1 h
      rw [TurnM.run_lift] at h
      obtain ⟨intro, -, h⟩ := Outcome.bind_eq_ok_iff.1 (congrArg Prod.fst h)
      exact tells_of_prompt h
    · exact tells_of_leave h

theorem tells_of_carryOut {d : Decision} (h : (f.carryOut user channel d).run w = (.ok r, w')) :
    r.Tells d.error? d.isStale d.note := by
  cases d with
  | closed =>
    rw [run_closed] at h
    exact tells_of_terminal (congrArg Prod.fst h)
  | begin isLost =>
    rw [run_begin, run_start] at h
    exact tells_of_enter h
  | redirect p s e =>
    obtain ⟨_, w₁, -, h⟩ := TurnM.run_bind_eq_ok_iff.1 h
    rw [TurnM.run_lift] at h
    obtain ⟨intro, -, h⟩ := Outcome.bind_eq_ok_iff.1 (congrArg Prod.fst h)
    exact tells_of_prompt h
  | depart p s => exact tells_of_leave h
  | reask p q =>
    rw [run_reask] at h
    exact tells_of_asking (congrArg Prod.fst h)
  | reject p stored q error =>
    obtain ⟨_, w₁, -, h⟩ := TurnM.run_bind_eq_ok_iff.1 h
    rw [TurnM.run_lift] at h
    exact tells_of_asking (congrArg Prod.fst h)
  | collect p q c =>
    obtain ⟨_, w₁, -, h⟩ := TurnM.run_bind_eq_ok_iff.1 h
    rw [TurnM.run_lift] at h
    obtain ⟨text, -, h⟩ := Outcome.bind_eq_ok_iff.1 (congrArg Prod.fst h)
    exact tells_of_prompt h
  | accept p q a => exact tells_of_carryAcceptance h

/-- The result of a turn tells what the decision of the turn says. -/
theorem told_of_processTurn {answer : Json}
    (h : (f.processTurn user answer channel).run w = (.ok r, w')) :
    ∃ d, f.decide w.store user answer channel = .ok d ∧
      (f.carryOut user channel d).run w = (.ok r, w') ∧ r.Tells d.error? d.isStale d.note := by
  obtain ⟨e, -, hr, -⟩ | ⟨d, hdecide, hrun⟩ := turn_cases h
  · cases hr
  · exact ⟨d, hdecide, hrun, tells_of_carryOut hrun⟩

/-! ## Other users -/

theorem elsewhere_of_completing (m : MemoryStore) (user : String) (section_ : Json)
    (record : CompletionRecord) : Elsewhere user m (m.completing user section_ record) :=
  (Elsewhere.patched m user _ _).trans (Elsewhere.appendCompletion _ user record)

theorem elsewhere_of_enter {left attempts : Nat} {target : Option Json}
    {transitions : List FlowStatus} {r : Except Fault TurnResult}
    (h : (f.enter user channel lead note left attempts target transitions).run w = (r, w')) :
    Elsewhere user w.store w'.store := by
  revert r w'
  refine f.run_enter_induct user channel lead note
    (P := fun w _ outcome => ∀ {r w'}, outcome = (r, w') → Elsewhere user w.store w'.store)
    ?ends ?fails ?asks ?passes left attempts target transitions w
  case ends =>
    intro w _ r w' h
    cases h
    exact .savePointer w.store user (ended w)
  case fails =>
    intro w _ e sessions r w' h
    cases h
    exact .refl user w.store
  case asks =>
    intro w _ _ _ section_ _ stageKey qid _ _ r w' h
    cases h
    exact .savePointer w.store user (opened w section_ stageKey qid)
  case passes =>
    intro w _ _ _ section_ outcome _ ih r w' h
    exact (elsewhere_of_completing w.store user section_ _).trans (ih h)

theorem elsewhere_of_leave {p : Pointer} {s : State} {transitions : List FlowStatus}
    {r : Except Fault TurnResult}
    (h : (f.leave user p s transitions channel note).run w = (r, w')) :
    Elsewhere user w.store w'.store := by
  have hdeparted : Elsewhere user w.store (departed w user p).store :=
    elsewhere_of_completing w.store user p.sectionKey _
  obtain ⟨e, -, -, rfl⟩ | ⟨q, -, -, rfl⟩ | ⟨e, -, -, rfl⟩ | ⟨lead, target, -, henter⟩ :=
    leave_cases h
  · exact .refl user w'.store
  · exact .savePointer w.store user _
  · exact hdeparted
  · exact hdeparted.trans (elsewhere_of_enter henter)

theorem elsewhere_of_cleared (m : MemoryStore) (user : String) (section_ : Json)
    (stored : Fields) : Elsewhere user m (cleared m user section_ stored) := by
  unfold cleared
  split
  · exact .patched m user section_ _
  · exact .refl user m

theorem elsewhere_of_carryAcceptance {p : Pointer} {a : Acceptance} {r : Except Fault TurnResult}
    (hkey : p.sectionKey.isKey = true)
    (h : (f.carryAcceptance user p a channel).run w = (r, w')) :
    Elsewhere user w.store w'.store := by
  refine (Elsewhere.patched w.store user p.sectionKey a.patch).trans ?_
  obtain ⟨-, -, rfl⟩ | ⟨nq, -, -, -, rfl⟩ | ⟨-, -, h⟩ := acceptance_cases hkey h
  · exact (elsewhere_of_completing _ user _ _).trans (.deletePointer _ user)
  · exact .savePointer _ user _
  · exact elsewhere_of_leave h

theorem elsewhere_of_carryOut {answer : Json} {d : Decision} {r : Except Fault TurnResult}
    (grounded : d.Grounded f w.store user answer channel)
    (h : (f.carryOut user channel d).run w = (r, w')) : Elsewhere user w.store w'.store := by
  cases d with
  | closed =>
    rw [run_closed] at h
    cases h
    exact .refl user w.store
  | begin isLost =>
    rw [run_begin, run_start] at h
    cases isLost with
    | false => exact elsewhere_of_enter h
    | true => exact (Elsewhere.deletePointer w.store user).trans (elsewhere_of_enter h)
  | redirect p s e =>
    rw [run_redirect] at h
    cases h
    exact .savePointer w.store user _
  | depart p s => exact elsewhere_of_leave h
  | reask p q =>
    rw [run_reask] at h
    cases h
    exact .refl user w.store
  | reject p stored q error =>
    rw [run_reject grounded.1.isKey] at h
    cases h
    exact elsewhere_of_cleared w.store user p.sectionKey stored
  | collect p q c =>
    rw [run_collect grounded.1.isKey] at h
    cases h
    exact .patched w.store user _ _
  | accept p q a => exact elsewhere_of_carryAcceptance grounded.1.isKey h

/-- A turn of one user leaves all other users alone. -/
theorem elsewhere_of_processTurn {answer : Json} {r : Except Fault TurnResult}
    (h : (f.processTurn user answer channel).run w = (r, w')) :
    Elsewhere user w.store w'.store := by
  obtain ⟨e, -, -, rfl⟩ | ⟨d, hdecide, hrun⟩ := turn_cases h
  · exact .refl user _
  · exact elsewhere_of_carryOut (grounded_of_decide hdecide) hrun

end Flow

end Questionnaire
