import Questionnaire.Proofs.Turn.Derivation
import Questionnaire.Proofs.Turn.Hops

/-!
# The course of a turn

A turn lists the states that the conversation went through.  The list says what the turn leads to
and how many sections were completed, and a conversation that was routed to its end has no section
left.

## Main Definitions

* `Arrives` - the states from the choice of a section on
* `Course` - the states of a turn
* `Exhausted` - routing has no section left
* `Flow.Follows` - what a turn that follows its course leaves behind

## Main Statements

* `Flow.arrival_of_enter` - entering sections one after the other
* `Flow.follows_of_processTurn` - every turn follows its course
-/

namespace Questionnaire

open Bookkeeping (flowScope)

/-- The states behind the choice of a section, by what they lead to: sections with nothing to ask
are completed on the spot, until one asks a question or none is left. -/
inductive Arrives : TurnKind → List FlowStatus → Prop where
  /-- The section asks a question. -/
  | asks : Arrives .prompt [.active]
  /-- No section is left. -/
  | ends : Arrives .terminal [.terminal]
  /-- The section has nothing to ask, and another one is chosen. -/
  | passes {kind : TurnKind} {rest : List FlowStatus} (h : Arrives kind rest) :
      Arrives kind (.sectionComplete :: .routed :: rest)

/-- The states that a conversation goes through in one turn, by what the turn leads to. -/
inductive Course : TurnKind → List FlowStatus → Prop where
  /-- The conversation was over. -/
  | closed : Course .terminal [.terminal]
  /-- A conversation that stood nowhere is begun. -/
  | begins {kind : TurnKind} {rest : List FlowStatus} (h : Arrives kind rest) :
      Course kind (.routed :: rest)
  /-- The section is not left. -/
  | stays : Course .prompt [.active]
  /-- The section is completed and the conversation is handed over. -/
  | handsOver : Course .handoff [.active, .sectionComplete]
  /-- The section is completed and another one is chosen. -/
  | leaves {kind : TurnKind} {rest : List FlowStatus} (h : Arrives kind rest) :
      Course kind (.active :: .sectionComplete :: .routed :: rest)

/-- The state in which a turn ends. -/
def TurnKind.lastState : TurnKind → FlowStatus
  | .prompt => .active
  | .handoff => .sectionComplete
  | .terminal => .terminal

theorem TurnKind.lastState_injective : Function.Injective TurnKind.lastState := by
  intro kind kind' h
  cases kind <;> cases kind' <;> first | rfl | cases h

theorem Arrives.getLast? {kind : TurnKind} {states : List FlowStatus} (h : Arrives kind states) :
    states.getLast? = some kind.lastState := by
  induction h with
  | asks => rfl
  | ends => rfl
  | @passes kind rest h ih =>
    rw [List.getLast?_cons, List.getLast?_cons, ih]
    rfl

/-- The last state tells what the turn leads to. -/
theorem Course.getLast? {kind : TurnKind} {states : List FlowStatus} (h : Course kind states) :
    states.getLast? = some kind.lastState := by
  cases h with
  | closed => rfl
  | begins h =>
    rw [List.getLast?_cons, h.getLast?]
    rfl
  | stays => rfl
  | handsOver => rfl
  | leaves h =>
    rw [List.getLast?_cons, List.getLast?_cons, List.getLast?_cons, h.getLast?]
    rfl

/-- Every section in the order of routing is completed or has a condition that fails. -/
def Exhausted (c : Catalog) (m : MemoryStore) (user : String) : Prop :=
  ∀ key ∈ c.processOrder, key ∈ m.completed user ∨ ∃ process, c.process? key = some process ∧
    Condition.holds process.askIf ((m.scopes user).read flowScope) = false

/-- What a result leads to, and the states of its turn. -/
structure TurnResult.Ends (r : TurnResult) (kind : TurnKind) (states : List FlowStatus) : Prop where
  /-- What the turn leads to. -/
  kind : r.kind = kind
  /-- The states that the conversation went through. -/
  states : r.transitions = states

namespace Flow

variable {f : Flow} {user : String} {channel : Json} {lead : String} {note : TurnNote}
  {w w' : World MemoryStore} {m : MemoryStore} {r : TurnResult} {p : Pointer}
  {states : List FlowStatus}

/-! ## Results -/

theorem ends_of_prompt {q : NextQuestion} {section_ : Json} {parts : PromptParts}
    (h : prompt q section_ states parts = .ok r) : r.Ends .prompt states := by
  obtain ⟨output, -, h⟩ := Outcome.bind_eq_ok_iff.1 h
  cases h
  exact ⟨rfl, rfl⟩

theorem ends_of_terminal (h : f.terminal states lead note = .ok r) : r.Ends .terminal states := by
  obtain ⟨closing, -, h⟩ := Outcome.bind_eq_ok_iff.1 h
  obtain ⟨output, -, h⟩ := Outcome.bind_eq_ok_iff.1 h
  cases h
  exact ⟨rfl, rfl⟩

theorem ends_of_handoff {section_ : Json} {fired : List FiredHandoff}
    (h : f.handoff section_ fired states note = .ok r) : r.Ends .handoff states := by
  obtain ⟨output, -, h⟩ := Outcome.bind_eq_ok_iff.1 h
  cases h
  exact ⟨rfl, rfl⟩

theorem ends_of_opening {s : State} {section_ stageKey : Json} {q : Except Fault NextQuestion}
    (h : f.opening s section_ stageKey q channel states lead note = .ok r) :
    r.Ends .prompt (states ++ [.active]) := by
  obtain ⟨intro, -, h⟩ := Outcome.bind_eq_ok_iff.1 h
  obtain ⟨q, -, h⟩ := Outcome.bind_eq_ok_iff.1 h
  exact ends_of_prompt h

/-! ## Routing to the end -/

/-- Where routing finds no section, none is left. -/
theorem exhausted_of_next {c : Catalog} (accepted : c.Accepted) (trimmed : c.HasTrimmedKeys)
    (h : Routing.next c (m.completed user) ((m.scopes user).read flowScope) = none) :
    Exhausted c m user := by
  intro key hkey
  have hineligible := List.find?_eq_none.1 h key hkey
  have known : (c.process? key).isSome = true :=
    (Catalog.hasKey_of_mem_processOrder accepted hkey).2
  obtain ⟨process, hprocess⟩ := Option.isSome_iff_exists.1 known
  have label := Routing.isLabel_of_process? accepted trimmed known
  by_cases hdone : (m.completed user).contains key = true
  · exact .inl ((Routing.contains_iff_of_isLabel label).1 hdone)
  · refine .inr ⟨process, hprocess, ?_⟩
    unfold Routing.isEligible at hineligible
    rw [hprocess, Bool.eq_false_iff.2 hdone] at hineligible
    simpa using hineligible

/-- Where routing finds no section behind one that was completed, none is left. -/
theorem exhausted_of_following {section_ : Json} {record : CompletionRecord}
    (accepted : f.catalog.Accepted) (trimmed : f.catalog.HasTrimmedKeys)
    (regular : (m.scopes user).Regular) (known : (f.catalog.process? section_).isSome = true)
    (h : f.following (m.completing user section_ record) user
      (Routing.complete (m.completed user) section_) section_ = none) :
    Exhausted f.catalog (m.completing user section_ record) user := by
  have label := Routing.isLabel_of_process? accepted trimmed known
  have hdone := (completed_completing regular label record).2
  refine exhausted_of_next accepted trimmed ?_
  rw [hdone]
  exact (Option.or_eq_none_iff.1 h).2

/-- The history behind a section that was completed. -/
theorem records_behind {m' : MemoryStore} {section_ : Json} {record : CompletionRecord}
    {records : List CompletionRecord}
    (h : m'.records user = (m.completing user section_ record).records user ++ records) :
    m'.records user = m.records user ++ record :: records := by
  rw [h, records_completing, List.append_assoc]
  rfl

/-- What entering sections leaves behind, from the states and the history before. -/
structure Arrival (f : Flow) (user : String) (w : World MemoryStore) (states : List FlowStatus)
    (r : TurnResult) (w' : World MemoryStore) : Prop where
  /-- The states go on, and every completion is in the history. -/
  goesOn : ∃ rest records, r.transitions = states ++ rest ∧ Arrives r.kind rest ∧
    w'.store.records user = w.store.records user ++ records ∧
    records.length = rest.count .sectionComplete
  /-- At the end no section is left. -/
  exhausted : r.kind = .terminal → Exhausted f.catalog w'.store user

/-- Entering sections one after the other goes on until one asks a question or none is left. -/
theorem arrival_of_enter (accepted : f.catalog.Accepted) (trimmed : f.catalog.HasTrimmedKeys)
    {left attempts : Nat} {target : Option Json} (regular : (w.store.scopes user).Regular)
    (last : target = none → Exhausted f.catalog w.store user)
    (h : (f.enter user channel lead note left attempts target states).run w = (.ok r, w')) :
    f.Arrival user w states r w' := by
  refine f.run_enter_induct_target user channel lead note
    (P := fun w target states outcome => (w.store.scopes user).Regular →
      (target = none → Exhausted f.catalog w.store user) →
      ∀ {r w'}, outcome = (.ok r, w') → f.Arrival user w states r w')
    ?ends ?fails ?asks ?passes left attempts target states w regular last h
  case ends =>
    intro w states _ last r w' h
    obtain ⟨hkind, hstates⟩ := ends_of_terminal (congrArg Prod.fst h)
    cases congrArg Prod.snd h
    exact ⟨⟨[.terminal], [], hstates, hkind ▸ .ends, (List.append_nil _).symm, rfl⟩,
      fun _ => last rfl⟩
  case fails =>
    intro w section_ states e sessions _ _ r w' h
    cases h
  case asks =>
    intro w states left attempts section_ s stageKey qid q _ _ _ r w' h
    obtain ⟨hkind, hstates⟩ := ends_of_opening (congrArg Prod.fst h)
    cases congrArg Prod.snd h
    refine ⟨⟨[.active], [], hstates, hkind ▸ .asks, (List.append_nil _).symm, rfl⟩, fun hover => ?_⟩
    rw [hkind] at hover
    cases hover
  case passes =>
    intro w states left attempts section_ outcome hentry ih regular _ r w' h
    obtain ⟨process, hadmitted, -⟩ := Outcome.bind_eq_ok_iff.1 hentry
    have known : (f.catalog.process? section_).isSome = true := by
      rw [f.process?_of_admitted user hadmitted]
      rfl
    have label := Routing.isLabel_of_process? accepted trimmed known
    -- the section that passes is recorded, and routing goes on behind it
    obtain ⟨⟨rest, records, hstates, harrives, hrecords, hcount⟩, hexhausted⟩ :=
      ih (completed_completing regular label _).1
        (exhausted_of_following accepted trimmed regular known) h
    refine ⟨⟨.sectionComplete :: .routed :: rest, _, ?_, .passes harrives, records_behind hrecords,
      ?_⟩, hexhausted⟩
    · rw [hstates, List.append_assoc]
      rfl
    · rw [List.length_cons, hcount, List.count_cons_self, List.count_cons_of_ne (by decide)]

/-! ## Turns -/

/-- What a turn that follows its course leaves behind. -/
structure Follows (f : Flow) (user : String) (m m' : MemoryStore) (r : TurnResult) : Prop where
  /-- The states follow the course. -/
  course : Course r.kind r.transitions
  /-- Every completion is in the history. -/
  records : ∃ records, m'.records user = m.records user ++ records ∧
    records.length = r.transitions.count .sectionComplete
  /-- A conversation that was routed to its end has no section left. -/
  exhausted : .routed ∈ r.transitions → r.kind = .terminal → Exhausted f.catalog m' user

/-- A turn that does not leave the section. -/
theorem follows_of_prompt {m' : MemoryStore} {q : NextQuestion} {section_ : Json}
    {parts : PromptParts} (h : prompt q section_ [.active] parts = .ok r)
    (hrecords : m'.records user = m.records user) : f.Follows user m m' r := by
  obtain ⟨hkind, hstates⟩ := ends_of_prompt h
  refine ⟨?_, ⟨[], by rw [hrecords, List.append_nil], by rw [hstates]; rfl⟩, fun hrouted => ?_⟩
  · rw [hkind, hstates]
    exact .stays
  · rw [hstates] at hrouted
    cases List.mem_singleton.1 hrouted

theorem follows_of_asking {m' : MemoryStore} {q : Question} {error : Option TurnError}
    (h : f.asking p q channel error = .ok r) (hrecords : m'.records user = m.records user) :
    f.Follows user m m' r := by
  obtain ⟨view, -, h⟩ := Outcome.bind_eq_ok_iff.1 h
  exact follows_of_prompt h hrecords

section

variable (accepted : f.catalog.Accepted) (trimmed : f.catalog.HasTrimmedKeys)

include accepted trimmed

theorem follows_of_start (regular : (w.store.scopes user).Regular)
    (h : (f.start user channel).run w = (.ok r, w')) :
    f.Follows user w.store w'.store r := by
  rw [run_start] at h
  obtain ⟨⟨rest, records, hstates, harrives, hrecords, hcount⟩, hexhausted⟩ :=
    arrival_of_enter accepted trimmed regular (exhausted_of_next accepted trimmed) h
  refine ⟨?_, ⟨records, hrecords, ?_⟩, fun _ => hexhausted⟩
  · rw [hstates]
    exact .begins harrives
  · rw [hstates, hcount]
    exact (List.count_cons_of_ne (by decide)).symm

theorem follows_of_leave {s : State} (regular : (w.store.scopes user).Regular)
    (known : (f.catalog.process? p.sectionKey).isSome = true)
    (h : (f.leave user p s [.active] channel note).run w = (.ok r, w')) :
    f.Follows user w.store w'.store r := by
  rw [run_leave] at h
  rcases hdeparture : f.departure p s with e | _ | q <;> rw [hdeparture] at h
  · cases h
  · dsimp only at h
    cases hclosing : f.closing p s with
    | error e =>
      rw [hclosing] at h
      cases h
    | ok lead =>
      rw [hclosing] at h
      have label := Routing.isLabel_of_process? accepted trimmed known
      -- the section is recorded before the next one is entered
      obtain ⟨⟨rest, records, hstates, harrives, hrecords, hcount⟩, hexhausted⟩ :=
        arrival_of_enter accepted trimmed (w := departed w user p)
          (completed_completing regular label _).1
          (exhausted_of_following accepted trimmed regular known) h
      refine ⟨?_, ⟨_, records_behind hrecords, ?_⟩, fun _ => hexhausted⟩
      · rw [hstates]
        exact .leaves harrives
      · rw [hstates, List.length_cons, hcount, List.count_append, Nat.add_comm]
        rfl
  · obtain ⟨view, -, hprompt⟩ := Outcome.bind_eq_ok_iff.1 (congrArg Prod.fst h)
    cases congrArg Prod.snd h
    exact follows_of_prompt hprompt rfl

theorem follows_of_carryAcceptance {a : Acceptance} (regular : (w.store.scopes user).Regular)
    (known : (f.catalog.process? p.sectionKey).isSome = true) (hkey : p.sectionKey.isKey = true)
    (hpatch : ∀ e ∈ a.patch, e.1.isKey = true)
    (h : (f.carryAcceptance user p a channel).run w = (.ok r, w')) :
    f.Follows user w.store w'.store r := by
  obtain ⟨-, hr, rfl⟩ | ⟨nq, -, -, hr, rfl⟩ | ⟨-, -, h⟩ := acceptance_cases hkey h
  · obtain ⟨hkind, hstates⟩ := ends_of_handoff hr.symm
    refine ⟨?_, ⟨_, records_completing _ user p.sectionKey _, by rw [hstates]; rfl⟩,
      fun _ hover => ?_⟩
    · rw [hkind, hstates]
      exact .handsOver
    · rw [hkind] at hover
      cases hover
  · obtain ⟨intro, -, hprompt⟩ := Outcome.bind_eq_ok_iff.1 hr.symm
    exact follows_of_prompt hprompt rfl
  · have hwritten :
        ((w.store.patched user p.sectionKey a.patch).scopes user).Regular := by
      rw [MemoryStore.scopes_patched_self]
      exact regular.write hpatch
    have follows := follows_of_leave accepted trimmed
      (w := { w with store := w.store.patched user p.sectionKey a.patch }) hwritten known h
    exact ⟨follows.course, follows.records, follows.exhausted⟩

theorem follows_of_carryOut {answer : Json} {d : Decision} (named : f.AddsNamed)
    (regular : (w.store.scopes user).Regular)
    (grounded : d.Grounded f w.store user answer channel)
    (h : (f.carryOut user channel d).run w = (.ok r, w')) :
    f.Follows user w.store w'.store r := by
  cases d with
  | closed =>
    rw [run_closed] at h
    obtain ⟨hkind, hstates⟩ := ends_of_terminal (congrArg Prod.fst h)
    cases congrArg Prod.snd h
    refine ⟨?_, ⟨[], (List.append_nil _).symm, by rw [hstates]; rfl⟩, fun hrouted => ?_⟩
    · rw [hkind, hstates]
      exact .closed
    · rw [hstates] at hrouted
      cases List.mem_singleton.1 hrouted
  | begin isLost =>
    rw [run_begin] at h
    cases isLost with
    | false => exact follows_of_start accepted trimmed regular h
    | true =>
      have follows := follows_of_start accepted trimmed
        (w := { w with store := w.store.deletePointer user }) regular h
      exact ⟨follows.course, follows.records, follows.exhausted⟩
  | redirect p s e =>
    rw [run_redirect] at h
    obtain ⟨intro, -, hprompt⟩ := Outcome.bind_eq_ok_iff.1 (congrArg Prod.fst h)
    cases congrArg Prod.snd h
    exact follows_of_prompt hprompt rfl
  | depart p s => exact follows_of_leave accepted trimmed regular grounded.isKnown h
  | reask p q =>
    rw [run_reask] at h
    cases congrArg Prod.snd h
    exact follows_of_asking (congrArg Prod.fst h) rfl
  | reject p stored q error =>
    rw [run_reject grounded.1.isKey] at h
    cases congrArg Prod.snd h
    refine follows_of_asking (congrArg Prod.fst h) ?_
    unfold cleared
    split <;> rfl
  | collect p q c =>
    rw [run_collect grounded.1.isKey] at h
    obtain ⟨text, -, hprompt⟩ := Outcome.bind_eq_ok_iff.1 (congrArg Prod.fst h)
    cases congrArg Prod.snd h
    exact follows_of_prompt hprompt rfl
  | accept p q a =>
    obtain ⟨stands, -, s, text, s', applied, accepts⟩ := grounded
    exact follows_of_carryAcceptance accepted trimmed regular stands.isKnown stands.isKey
      (named.regular_patch accepts).isKey h

end

/-- Every turn that returns follows its course: the states are those of one of the ways a turn may
go, the last of them tells what the turn leads to, the history grows by one record for every section
that was completed, and where the turn was routed to the end, every section in the order of routing
is completed or has a condition that fails. -/
theorem follows_of_processTurn {answer : Json} (accepted : f.catalog.Accepted)
    (trimmed : f.catalog.HasTrimmedKeys) (named : f.AddsNamed)
    (regular : (w.store.scopes user).Regular)
    (h : (f.processTurn user answer channel).run w = (.ok r, w')) :
    f.Follows user w.store w'.store r ∧
      ∀ kind, r.kind = kind ↔ r.transitions.getLast? = some kind.lastState := by
  obtain ⟨d, hdecide, hrun, -⟩ := told_of_processTurn h
  have follows :=
    follows_of_carryOut accepted trimmed named regular (grounded_of_decide hdecide) hrun
  refine ⟨follows, fun kind => ⟨fun hkind => ?_, fun hlast => ?_⟩⟩
  · rw [← hkind]
    exact follows.course.getLast?
  · rw [follows.course.getLast?] at hlast
    exact TurnKind.lastState_injective (Option.some.inj hlast)

/-- A first turn that completes a section with nothing to ask goes through every state from the
choice of the section to the end. -/
theorem follows_of_processTurn_idle : ∃ (c : Catalog) (r : TurnResult) (w' : World MemoryStore),
    c.Accepted ∧ ((Flow.mk c none).processTurn "u1" .null .null).run untouchedWorld = (.ok r, w') ∧
    r.transitions = [.routed, .sectionComplete, .routed, .terminal] ∧ r.kind = .terminal ∧
    (Flow.mk c none).Follows "u1" untouchedWorld.store w'.store r := by
  have evaluated : Outcome.Gives (Catalog.ofJson
      (detour [.obj [("process_key", .str "01")]]) "catalog.json") fun e =>
      (∀ s ∈ e.1.processes, s.1.isTrimmed = true) ∧
      Outcome.Gives (((Flow.mk e.1 none).processTurn "u1" .null .null).run untouchedWorld).1
        fun r => r.transitions = [.routed, .sectionComplete, .routed, .terminal] := by
    decide +kernel
  obtain ⟨⟨c, warnings⟩, hc, trimmed, r, hr, hstates⟩ := evaluated
  have accepted : (Flow.mk c none).catalog.Accepted := ⟨_, "catalog.json", warnings, hc⟩
  have hrun : ((Flow.mk c none).processTurn "u1" .null .null).run untouchedWorld =
      (.ok r, _) := Prod.ext hr rfl
  obtain ⟨follows, hkind⟩ := follows_of_processTurn accepted trimmed (fun _ _ _ e he => by cases he)
    (fun e he => by cases he) hrun
  exact ⟨c, r, _, accepted, hrun, hstates, (hkind .terminal).2 (by rw [hstates]; rfl), follows⟩

end Flow

end Questionnaire
