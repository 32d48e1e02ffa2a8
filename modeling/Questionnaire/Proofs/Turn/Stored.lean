import Questionnaire.Proofs.Store.Scopes
import Questionnaire.Proofs.Turn.Result

/-!
# What a turn leaves in the scopes

A turn writes into the section where it takes an answer, and into no other one.  Besides that it
only records completed sections.  So the scopes behind a turn are those of its one write, up to the
record of completed sections.

## Main Definitions

* `Decision.stores` - the scopes after the write of a decision
* `Scopes.IgnoresRecord` - a property that does not depend on the record of completed sections

## Main Statements

* `Scopes.ignoresRecord_own`, `Scopes.ignoresRecord_read` - values that a record does not change
* `Flow.scopes_of_processTurn` - what holds of the scopes after the write holds after the turn
-/

namespace Questionnaire

/-- The scopes of a user after what a decision writes into its section. -/
def Decision.stores : Decision → Scopes → Scopes
  | .accept p _ a, scopes => scopes.write p.sectionKey a.patch
  | .collect p q c, scopes => scopes.write p.sectionKey (Flow.draftPatch q c)
  | .reject p stored _ _, scopes =>
    if ((Assoc.valueAt? Bookkeeping.transient stored).getD .null).isFilled then
      scopes.write p.sectionKey [(Bookkeeping.transient, .str "")]
    else scopes
  | _, scopes => scopes

namespace Scopes

open Bookkeeping (flowScope)

/-- A property of scopes that a new record of completed sections keeps. -/
def IgnoresRecord (P : Scopes → Prop) : Prop :=
  ∀ scopes done, P scopes → P (scopes.write flowScope (record done))

/-- A record of completed sections is the only value of a scope that a new record changes. -/
theorem ignoresRecord_own {scope key : Json}
    (h : ¬ (scope = flowScope ∧ key = Bookkeeping.completed)) (v : Option Json) :
    IgnoresRecord fun scopes => Assoc.valueAt? key (scopes.own scope) = v := by
  intro scopes done hv
  rw [← hv]
  exact valueAt?_own_record Flow.isKey_flowScope done scopes fun hscope hkey =>
    h ⟨Json.eq_of_str_beq hscope, hkey⟩

/-- No scope reads another value because of a new record of completed sections. -/
theorem ignoresRecord_read (scope : Json) (fields : Fields) :
    IgnoresRecord fun scopes => scopes.Regular ∧ scopes.OnlyRecords flowScope ∧
      ∀ key, key ≠ Bookkeeping.completed →
        Assoc.valueAt? key (scopes.read scope) = Assoc.valueAt? key fields := by
  rintro scopes done ⟨regular, only, hread⟩
  refine ⟨regular.write (regular_record done).isKey, only.write Flow.isKey_flowScope done,
    fun key hkey => ?_⟩
  rw [regular.valueAt?_read_record Flow.isKey_flowScope done only hkey, hread key hkey]

end Scopes

namespace Flow

variable {f : Flow} {user : String} {channel : Json} {lead : String} {note : TurnNote}
  {w w' : World MemoryStore} {r : Except Fault TurnResult} {P : Scopes → Prop}

theorem scopes_of_completing (ignores : Scopes.IgnoresRecord P) {m : MemoryStore}
    (h : P (m.scopes user)) (section_ : Json) (record : CompletionRecord) :
    P ((m.completing user section_ record).scopes user) := by
  rw [MemoryStore.completing, MemoryStore.scopes_appendCompletion, MemoryStore.scopes_patched_self]
  exact ignores _ _ h

theorem scopes_of_enter (ignores : Scopes.IgnoresRecord P) {left attempts : Nat}
    {target : Option Json} {transitions : List FlowStatus} (h : P (w.store.scopes user))
    (hrun : (f.enter user channel lead note left attempts target transitions).run w = (r, w')) :
    P (w'.store.scopes user) := by
  -- every section on the way is only recorded
  refine f.run_enter_induct user channel lead note
    (P := fun w _ outcome => P (w.store.scopes user) → ∀ {r w'}, outcome = (r, w') →
      P (w'.store.scopes user))
    ?ends ?fails ?asks ?passes left attempts target transitions w h hrun
  case ends =>
    intro w _ h r w' hrun
    cases hrun
    exact h
  case fails =>
    intro w _ e sessions h r w' hrun
    cases hrun
    exact h
  case asks =>
    intro w _ left attempts section_ s stageKey qid q _ h r w' hrun
    cases hrun
    exact h
  case passes =>
    intro w _ left attempts section_ outcome _ ih h r w' hrun
    exact ih (scopes_of_completing ignores h section_ _) hrun

theorem scopes_of_leave (ignores : Scopes.IgnoresRecord P) {p : Pointer} {s : State}
    {transitions : List FlowStatus} (h : P (w.store.scopes user))
    (hrun : (f.leave user p s transitions channel note).run w = (r, w')) :
    P (w'.store.scopes user) := by
  have hdeparted : P ((departed w user p).store.scopes user) :=
    scopes_of_completing ignores h p.sectionKey _
  obtain ⟨e, -, -, rfl⟩ | ⟨q, -, -, rfl⟩ | ⟨e, -, -, rfl⟩ | ⟨lead, target, -, henter⟩ :=
    leave_cases hrun
  · exact h
  · exact h
  · exact hdeparted
  · exact scopes_of_enter ignores hdeparted henter

theorem scopes_of_carryAcceptance (ignores : Scopes.IgnoresRecord P) {p : Pointer} {a : Acceptance}
    (hkey : p.sectionKey.isKey = true) (h : P ((w.store.scopes user).write p.sectionKey a.patch))
    (hrun : (f.carryAcceptance user p a channel).run w = (r, w')) : P (w'.store.scopes user) := by
  rw [← MemoryStore.scopes_patched_self] at h
  obtain ⟨-, -, rfl⟩ | ⟨nq, -, -, -, rfl⟩ | ⟨-, -, hleave⟩ := acceptance_cases hkey hrun
  · rw [MemoryStore.scopes_deletePointer]
    exact scopes_of_completing ignores h p.sectionKey _
  · exact h
  · exact scopes_of_leave ignores
      (w := { w with store := w.store.patched user p.sectionKey a.patch }) h hleave

theorem scopes_cleared (m : MemoryStore) (user : String) (section_ : Json) (stored : Fields) :
    (cleared m user section_ stored).scopes user =
      if ((Assoc.valueAt? Bookkeeping.transient stored).getD .null).isFilled then
        (m.scopes user).write section_ [(Bookkeeping.transient, .str "")]
      else m.scopes user := by
  unfold cleared
  split
  · rw [MemoryStore.scopes_patched_self]
  · rfl

theorem scopes_of_carryOut (ignores : Scopes.IgnoresRecord P) {answer : Json} {d : Decision}
    (grounded : d.Grounded f w.store user answer channel) (h : P (d.stores (w.store.scopes user)))
    (hrun : (f.carryOut user channel d).run w = (r, w')) : P (w'.store.scopes user) := by
  cases d with
  | closed =>
    rw [run_closed] at hrun
    cases hrun
    exact h
  | begin isLost =>
    rw [run_begin, run_start] at hrun
    cases isLost with
    | false => exact scopes_of_enter ignores h hrun
    | true =>
      exact scopes_of_enter ignores (w := { w with store := w.store.deletePointer user }) h hrun
  | redirect p s e =>
    rw [run_redirect] at hrun
    cases hrun
    exact h
  | depart p s => exact scopes_of_leave ignores h hrun
  | reask p q =>
    rw [run_reask] at hrun
    cases hrun
    exact h
  | reject p stored q error =>
    rw [run_reject grounded.1.isKey] at hrun
    cases hrun
    rw [scopes_cleared]
    exact h
  | collect p q c =>
    rw [run_collect grounded.1.isKey] at hrun
    cases hrun
    rw [MemoryStore.scopes_patched_self]
    exact h
  | accept p q a => exact scopes_of_carryAcceptance ignores grounded.1.isKey h hrun

/-- What holds of the scopes after the write of a decision holds after the turn, whatever sections
are completed in it. -/
theorem scopes_of_processTurn (ignores : Scopes.IgnoresRecord P) {answer : Json} {d : Decision}
    (hdecide : f.decide w.store user answer channel = .ok d)
    (h : P (d.stores (w.store.scopes user)))
    (hrun : (f.processTurn user answer channel).run w = (r, w')) : P (w'.store.scopes user) := by
  rw [run_processTurn, hdecide] at hrun
  exact scopes_of_carryOut ignores (grounded_of_decide hdecide) h hrun

end Flow

end Questionnaire
