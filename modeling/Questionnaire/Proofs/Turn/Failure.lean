import Questionnaire.Catalog.Loading
import Questionnaire.Proofs.Turn.Decision
import Questionnaire.Proofs.Turn.Sections

/-!
# Turns that fail

A turn saves before it words its answer, and the wording may still fail.  What was saved then stays,
so a turn that fails changes nothing exactly when it fails before the first save, or when what it
has saved by then was there before.

## Main Definitions

* `Flow.StaysPut` - leaving a section does not save anything new before it fails
* `Decision.Harmless` - a decision that saves nothing new before it fails
* `Flow.Harmless` - a turn that saves nothing new before it fails

## Main Statements

* `Flow.failed_untouched_iff` - when a failing turn leaves a user untouched
* `Flow.failed_not_untouched` - a turn that fails after its answer was stored
-/

namespace Questionnaire

open MemoryStore (Untouched)

namespace Flow

/-- Leaving a section saves at most the pointer that stood there before. -/
def StaysPut (f : Flow) (m : MemoryStore) (user : String) (p : Pointer) (s : State) : Prop :=
  match f.departure p s with
  | .error _ => True
  | .ok (some q) => m.pointer? user = some (p.advance q.qid q.stageKey)
  | .ok none => False

/-- An answer is stored over the same values, and neither the conversation nor its section ends. -/
def StoresInPlace (f : Flow) (m : MemoryStore) (user : String) (p : Pointer) (a : Acceptance) :
    Prop :=
  a.fired = [] ∧ Untouched user m (m.patched user p.sectionKey a.patch) ∧
    match a.next with
    | some nq => m.pointer? user = some (p.advance nq.qid nq.stageKey)
    | none => f.StaysPut m user p a.state

/-- Starting saves nothing: there is a section to enter, but it cannot be entered. -/
def NeverOpens (f : Flow) (m : MemoryStore) (user : String) (channel : Json) : Prop :=
  ∃ section_ e, Routing.next f.catalog (m.completed user)
      ((m.scopes user).read Bookkeeping.flowScope) = some section_ ∧
    f.entry m user channel f.maxHops 0 section_ = .error e

end Flow

/-- What a decision saves before it may fail was there before, the extracted answer aside. -/
def Decision.Harmless (f : Flow) (m : MemoryStore) (user : String) (channel : Json) :
    Decision → Prop
  | .closed => True
  | .begin isLost => isLost = false ∧ f.NeverOpens m user channel
  | .redirect p _ e => m.pointer? user = some (p.advance e.qid e.stageKey)
  | .depart p s => f.StaysPut m user p s
  | .reask _ _ => True
  | .reject _ _ _ _ => True
  | .collect p q c => Untouched user m (m.patched user p.sectionKey (Flow.draftPatch q c))
  | .accept p _ a => f.StoresInPlace m user p a

namespace Flow

/-- What a turn saves before it may fail was there before, the extracted answer aside. -/
def Harmless (f : Flow) (m : MemoryStore) (user : String) (answer channel : Json) : Prop :=
  ∀ d, f.decide m user answer channel = .ok d → d.Harmless f m user channel

variable (f : Flow) (user : String) (channel : Json) (note : TurnNote)

/-! ## Histories only grow -/

theorem records_le_of_enter (left attempts : Nat) (target : Option Json) (lead : String)
    (transitions : List FlowStatus) (w : World MemoryStore) :
    (w.store.records user).length ≤
      (((f.enter user channel lead note left attempts target transitions).run w).2.store.records
        user).length := by
  refine f.run_enter_induct user channel lead note
    (P := fun w _ outcome => (w.store.records user).length ≤ (outcome.2.store.records user).length)
    ?ends ?fails ?asks ?passes left attempts target transitions w
  case ends => exact fun w _ => Nat.le_refl _
  case fails => exact fun w _ _ _ => Nat.le_refl _
  case asks => exact fun w _ _ _ _ _ _ _ _ _ => Nat.le_refl _
  case passes =>
    intro w _ _ _ section_ outcome _ h
    refine Nat.le_trans ?_ h
    rw [passed, records_completing, List.length_append]
    exact Nat.le_add_right _ _

/-- Once a section is recorded as completed, something has changed. -/
theorem not_untouched_of_departed {m m' : MemoryStore} {w : World MemoryStore} {p : Pointer}
    (hm : w.store.records user = m.records user)
    (h : ((departed w user p).store.records user).length ≤ (m'.records user).length) :
    ¬ Untouched user m m' := by
  refine MemoryStore.not_untouched_of_lt (Nat.lt_of_lt_of_le ?_ h)
  rw [departed, records_completing, List.length_append, hm]
  exact Nat.lt_succ_self _

/-! ## Leaving and entering -/

/-- Leaving a section leaves a user untouched when the section is kept, and its pointer too. -/
theorem untouched_leave_iff {m : MemoryStore} {w w' : World MemoryStore} {p : Pointer} {s : State}
    {transitions : List FlowStatus} {r : Except Fault TurnResult}
    (hp : w.store.pointer? user = m.pointer? user) (hm : w.store.records user = m.records user)
    (h : (f.leave user p s transitions channel note).run w = (r, w')) :
    Untouched user m w'.store ↔ Untouched user m w.store ∧ f.StaysPut m user p s := by
  unfold StaysPut
  obtain ⟨e, hdeparture, -, rfl⟩ | ⟨q, hdeparture, -, rfl⟩ | ⟨e, hdeparture, -, rfl⟩ |
    ⟨lead, target, hdeparture, henter⟩ := leave_cases h <;> rw [hdeparture]
  · rw [and_true]
  · exact MemoryStore.untouched_savePointer_iff hp _
  · rw [and_false, iff_false]
    exact not_untouched_of_departed user hm (Nat.le_refl _)
  · rw [and_false, iff_false]
    refine not_untouched_of_departed user hm (p := p) ?_
    have hrecords := f.records_le_of_enter user channel note f.maxHops 0 target lead
      (transitions ++ [.sectionComplete, .routed]) (departed w user p)
    rw [henter] at hrecords
    exact hrecords

/-- Entering sections leaves a user whose pointer stands in none untouched only when the first of
them cannot be entered. -/
theorem untouched_enter_iff {m : MemoryStore} {w w' : World MemoryStore} {left attempts : Nat}
    {target : Option Json} {lead : String} {transitions : List FlowStatus}
    {r : Except Fault TurnResult}
    (hp : ∀ p, m.pointer? user = some p →
      p.isTerminal = false ∧ f.catalog.process? p.sectionKey = none)
    (hm : w.store.records user = m.records user)
    (h : (f.enter user channel lead note left attempts target transitions).run w = (r, w')) :
    Untouched user m w'.store ↔ Untouched user m w.store ∧
      ∃ section_ e, target = some section_ ∧
        f.entry w.store user channel left attempts section_ = .error e := by
  cases target with
  | none =>
    rw [run_enter_none] at h
    cases h
    constructor
    · intro same
      -- the pointer that is saved is at the end, and no such pointer was there
      have hended : m.pointer? user = some (ended w) := by
        rw [← same.pointer, MemoryStore.pointer?_savePointer_self]
      cases (hp _ hended).1
    · rintro ⟨-, section_, e, hnone, -⟩
      cases hnone
  | some section_ =>
    rcases hentry : f.entry w.store user channel left attempts section_ with
      e | ⟨s, stageKey, qid, q⟩ | _
    · obtain ⟨sessions, hrun⟩ := f.run_enter_error user channel lead note w transitions hentry
      rw [hrun] at h
      cases h
      exact ⟨fun same => ⟨same, section_, e, rfl, hentry⟩, fun h => h.1⟩
    · rw [f.run_enter_ask user channel lead note w transitions hentry] at h
      cases h
      constructor
      · intro same
        -- the pointer that is saved stands in a section of the catalog, and none did
        have hopened : m.pointer? user = some (opened w section_ stageKey qid) := by
          rw [← same.pointer, MemoryStore.pointer?_savePointer_self]
        obtain ⟨process, hadmitted, -⟩ := Outcome.bind_eq_ok_iff.1 hentry
        have hnone := (hp _ hopened).2
        rw [opened, f.process?_of_admitted user hadmitted] at hnone
        cases hnone
      · rintro ⟨-, other, e, hsection, herror⟩
        cases hsection
        rw [hentry] at herror
        cases herror
    · obtain ⟨rest, rfl, hrun⟩ := f.run_enter_pass user channel lead note w transitions hentry
      rw [hrun] at h
      constructor
      · intro same
        -- the section was recorded, and later sections only add to the history
        have hrecords := f.records_le_of_enter user channel note rest (attempts + 1)
          (f.following (passed w user section_).store user
            (Routing.complete (w.store.completed user) section_) section_) lead
          (transitions ++ [.sectionComplete, .routed]) (passed w user section_)
        rw [h] at hrecords
        refine absurd same (MemoryStore.not_untouched_of_lt (Nat.lt_of_lt_of_le ?_ hrecords))
        rw [passed, records_completing, List.length_append, hm]
        exact Nat.lt_succ_self _
      · rintro ⟨-, other, e, hsection, herror⟩
        cases hsection
        rw [hentry] at herror
        cases herror

/-- Starting leaves a user without pointer untouched only when no section can be entered. -/
theorem untouched_start_iff {m : MemoryStore} {w w' : World MemoryStore}
    {r : Except Fault TurnResult}
    (hp : ∀ p, m.pointer? user = some p →
      p.isTerminal = false ∧ f.catalog.process? p.sectionKey = none)
    (hm : w.store.records user = m.records user)
    (h : (f.start user channel).run w = (r, w')) :
    Untouched user m w'.store ↔ Untouched user m w.store ∧ f.NeverOpens w.store user channel := by
  rw [run_start] at h
  exact f.untouched_enter_iff user channel .nothing hp hm h

/-! ## The whole turn -/

/-- Clearing the extracted answer touches nothing else. -/
theorem untouched_cleared {section_ : Json} (hkey : section_.isKey = true) (m : MemoryStore)
    (stored : Fields) : Untouched user m (cleared m user section_ stored) := by
  unfold cleared
  split
  · exact MemoryStore.untouched_clear hkey m user ""
  · exact .refl user m

theorem untouched_accept_iff {w w' : World MemoryStore} {p : Pointer} {a : Acceptance}
    {r : Except Fault TurnResult} (hkey : p.sectionKey.isKey = true)
    (h : (f.carryAcceptance user p a channel).run w = (r, w')) :
    Untouched user w.store w'.store ↔ f.StoresInPlace w.store user p a := by
  have hp : (w.store.patched user p.sectionKey a.patch).pointer? user = w.store.pointer? user :=
    rfl
  have hm : (w.store.patched user p.sectionKey a.patch).records user = w.store.records user :=
    rfl
  unfold StoresInPlace
  obtain ⟨hfired, -, rfl⟩ | ⟨nq, hfired, hnext, -, rfl⟩ | ⟨hfired, hnext, h⟩ :=
    acceptance_cases hkey h
  · -- a handoff always leaves a record
    refine iff_of_false (MemoryStore.not_untouched_of_lt ?_) fun h => hfired h.1
    rw [MemoryStore.records_deletePointer, departed, records_completing,
      MemoryStore.records_patched, List.length_append]
    exact Nat.lt_succ_self _
  · rw [hnext]
    refine (MemoryStore.untouched_savePointer_iff hp _).trans ?_
    exact ⟨fun same => ⟨hfired, same⟩, fun h => h.2⟩
  · rw [hnext]
    refine (f.untouched_leave_iff user channel a.note
      (w := { w with store := w.store.patched user p.sectionKey a.patch }) hp hm h).trans ?_
    exact ⟨fun same => ⟨hfired, same⟩, fun h => h.2⟩

/-- What a decision changes. -/
theorem untouched_carryOut_iff {answer : Json} {w w' : World MemoryStore} {d : Decision}
    {r : Except Fault TurnResult} (grounded : d.Grounded f w.store user answer channel)
    (h : (f.carryOut user channel d).run w = (r, w')) :
    Untouched user w.store w'.store ↔ d.Harmless f w.store user channel := by
  cases d with
  | closed =>
    rw [run_closed] at h
    cases h
    exact iff_of_true (.refl user w.store) trivial
  | begin isLost =>
    cases isLost with
    | false =>
      have hp : w.store.pointer? user = none := grounded
      refine (f.untouched_start_iff user channel (fun p hsome => ?_) rfl h).trans ?_
      · rw [hp] at hsome
        cases hsome
      · exact ⟨fun h => ⟨rfl, h.2⟩, fun h => ⟨.refl user w.store, h.2⟩⟩
    | true =>
      obtain ⟨p, hp, hactive, hlost⟩ := grounded
      have hstart : (f.start user channel).run
          { w with store := w.store.deletePointer user } = (r, w') := h
      have hstray : ∀ p, w.store.pointer? user = some p →
          p.isTerminal = false ∧ f.catalog.process? p.sectionKey = none := by
        intro p' hsome
        rw [hp] at hsome
        cases hsome
        exact ⟨hactive, hlost⟩
      refine (f.untouched_start_iff user channel
        (w := { w with store := w.store.deletePointer user }) hstray rfl hstart).trans ?_
      -- the pointer was there and is forgotten, which already is a change
      refine iff_of_false (fun h => ?_) fun h => Bool.noConfusion h.1
      have hnone := h.1.pointer
      rw [MemoryStore.pointer?_deletePointer_self, hp] at hnone
      cases hnone
  | redirect p s e =>
    rw [run_redirect] at h
    cases h
    refine (MemoryStore.untouched_savePointer_iff rfl _).trans ?_
    exact ⟨fun h => h.2, fun hp => ⟨.refl user w.store, hp⟩⟩
  | depart p s =>
    refine (f.untouched_leave_iff user channel .nothing rfl rfl h).trans ?_
    exact ⟨fun h => h.2, fun stays => ⟨.refl user w.store, stays⟩⟩
  | reask p q =>
    rw [run_reask] at h
    cases h
    exact iff_of_true (.refl user w.store) trivial
  | reject p stored q error =>
    rw [run_reject grounded.1.isKey] at h
    cases h
    exact iff_of_true (untouched_cleared user grounded.1.isKey w.store stored) trivial
  | collect p q c =>
    rw [run_collect grounded.1.isKey] at h
    cases h
    exact Iff.rfl
  | accept p q a => exact f.untouched_accept_iff user channel grounded.1.isKey h

/-- What a turn changes. -/
theorem untouched_iff {answer : Json} {w w' : World MemoryStore} {r : Except Fault TurnResult}
    (h : (f.processTurn user answer channel).run w = (r, w')) :
    Untouched user w.store w'.store ↔ f.Harmless w.store user answer channel := by
  unfold Harmless
  obtain ⟨e, hdecide, -, rfl⟩ | ⟨d, hdecide, hrun⟩ := turn_cases h
  · rw [hdecide]
    exact iff_of_true (.refl user _) fun d hd => by cases hd
  · rw [hdecide]
    refine (f.untouched_carryOut_iff user channel (grounded_of_decide hdecide) hrun).trans ?_
    constructor
    · intro harmless d' hd'
      cases hd'
      exact harmless
    · intro harmless
      exact harmless d rfl

/-- A turn that fails leaves a user untouched exactly when it fails before its first save, or when
everything that it has saved by then was there before. -/
theorem failed_untouched_iff {answer : Json} {w w' : World MemoryStore} {e : Fault}
    (h : (f.processTurn user answer channel).run w = (.error e, w')) :
    Untouched user w.store w'.store ↔ f.Harmless w.store user answer channel :=
  f.untouched_iff user channel h

/-! ## A turn that fails too late -/

/-- A catalog whose only stage is closed by a text that cannot be rendered. -/
def stumbling : Json :=
  .obj [
    ("questions", .arr [.obj [("qid", .str "Q1"), ("field_key", .str "name"),
      ("prompt", .str "Name?")]]),
    ("stages", .arr [.obj [("stage_key", .str "s"), ("question_ids", .arr [.str "Q1"]),
      ("completion_checkpoint",
        .obj [("send_summary", .bool true), ("summary_template", .str "\x7b")])]]),
    ("processes", .arr [.obj [("process_key", .str "01"), ("stage_keys", .arr [.str "s"])]])]

/-- A world in which the only question of that catalog is pending. -/
def pendingName : World MemoryStore where
  store := { pointers := [("u1", ⟨.str "01", .str "Q1", .str "s", .active, .str "00000001"⟩)] }
  sessions := 1
  now := "2000-01-01T00:00:00+00:00"

/-- The catalog is accepted, and the turn that answers its question fails with the answer stored and
the section recorded as completed. -/
theorem stumbles : ∃ c warnings e w',
    Catalog.ofJson stumbling "catalog.json" = .ok (c, warnings) ∧
      ((Flow.mk c none).processTurn "u1" (.str "Ann") .null).run pendingName = (.error e, w') ∧
      w'.store.own? "u1" (.str "01") (.str "name") = some (.str "Ann") ∧
      (w'.store.records "u1").length = 1 := by
  have evaluated : (match Catalog.ofJson stumbling "catalog.json" with
      | .error _ => false
      | .ok (c, _) =>
        match ((Flow.mk c none).processTurn "u1" (.str "Ann") .null).run pendingName with
        | (.ok _, _) => false
        | (.error _, w') =>
          ((w'.store.own? "u1" (.str "01") (.str "name")).bind Json.text? == some "Ann") &&
            (w'.store.records "u1").length == 1) = true := by
    decide +kernel
  split at evaluated
  · cases evaluated
  · rename_i c warnings hc
    split at evaluated
    · cases evaluated
    · rename_i e w' hrun
      rw [Bool.and_eq_true, beq_iff_eq, beq_iff_eq] at evaluated
      obtain ⟨hname, hrecords⟩ := evaluated
      refine ⟨c, warnings, e, w', hc, hrun, ?_, hrecords⟩
      obtain ⟨v, hv, htext⟩ := Option.bind_eq_some_iff.1 hname
      cases v <;> cases htext
      exact hv

/-- A turn may fail and still have stored its answer. -/
theorem failed_not_untouched : ∃ c warnings e w',
    Catalog.ofJson stumbling "catalog.json" = .ok (c, warnings) ∧
      ((Flow.mk c none).processTurn "u1" (.str "Ann") .null).run pendingName = (.error e, w') ∧
      ¬ Untouched "u1" pendingName.store w'.store := by
  obtain ⟨c, warnings, e, w', hc, hrun, -, hrecords⟩ := stumbles
  refine ⟨c, warnings, e, w', hc, hrun, fun same => ?_⟩
  rw [same.records] at hrecords
  cases hrecords

/-- Its decision is not harmless. -/
theorem failed_not_harmless : ∃ c warnings e w',
    Catalog.ofJson stumbling "catalog.json" = .ok (c, warnings) ∧
      ((Flow.mk c none).processTurn "u1" (.str "Ann") .null).run pendingName = (.error e, w') ∧
      ¬ (Flow.mk c none).Harmless pendingName.store "u1" (.str "Ann") .null := by
  obtain ⟨c, warnings, e, w', hc, hrun, -, hrecords⟩ := stumbles
  refine ⟨c, warnings, e, w', hc, hrun, fun harmless => ?_⟩
  have same := (failed_untouched_iff _ _ _ hrun).2 harmless
  rw [same.records] at hrecords
  cases hrecords

end Flow

end Questionnaire
