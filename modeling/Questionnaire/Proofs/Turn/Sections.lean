import Questionnaire.Proofs.Turn.Run
import Questionnaire.Turn.Flow

/-!
# Entering and leaving sections

Entering a section reads it before anything is saved, and so does leaving one.  What the reading
finds decides what is saved, and whether a further section is entered.

## Main Definitions

* `Entry`, `Flow.entry` - what a section that is entered has to offer
* `Flow.departure` - the question that keeps a section from being left
* `MemoryStore.completing` - the store after a section was completed

## Main Statements

* `Flow.run_enter_ask`, `Flow.run_enter_pass`, `Flow.run_enter_error` - one hop
* `Flow.run_enter_induct_target`, `Flow.run_enter_induct` - what holds of every hop holds of a whole
  chain of sections
* `Flow.run_leave`, `Flow.leave_cases` - leaving a section
-/

namespace Questionnaire

/-- What a section that is entered has to offer. -/
inductive Entry where
  /-- A question to ask. -/
  | ask (s : State) (stageKey qid : Json) (q : Except Fault NextQuestion)
  /-- Nothing is left to ask. -/
  | pass

namespace MemoryStore

/-- The completed sections of a user. -/
def completed (m : MemoryStore) (user : String) : List Json :=
  Routing.completed ((m.scopes user).read Bookkeeping.flowScope)

/-- The store after a section was completed. -/
def completing (m : MemoryStore) (user : String) (section_ : Json) (r : CompletionRecord) :
    MemoryStore :=
  (m.patched user Bookkeeping.flowScope
    [(Bookkeeping.completed, .arr (Routing.complete (m.completed user) section_))]).appendCompletion
      user r

end MemoryStore

namespace Flow

open TurnM (lift)

/-- The section that is entered, unless it does not exist, was completed, or too many were entered
before. -/
def admitted {σ : Type} [Store σ] (f : Flow) (m : σ) (user : String) (left attempts : Nat)
    (section_ : Json) : Except Fault Section := do
  let fields ← Store.getFields m user Bookkeeping.flowScope
  match left, f.catalog.process? section_ with
  | _ + 1, some process =>
    if (Routing.completed fields).contains section_ then
      .error (.noEligibleTarget user section_ (attempts + 1))
    else pure process
  | _, _ => .error (.noEligibleTarget user section_ (attempts + 1))

/-- What a section has to offer. -/
def offer {σ : Type} [Store σ] (f : Flow) (m : σ) (user : String) (channel section_ : Json)
    (process : Section) : Except Fault Entry := do
  let stored ← Store.getFields m user section_
  let s ← f.loadState stored
  match ← s.nextQuestion? f.catalog (some process.stageKeys) channel with
  | some q => pure (.ask s q.stageKey q.qid (.ok q))
  | none =>
    if ← s.isComplete f.catalog process.stageKeys process.askIf then pure .pass
    else
      match ← s.missingQuestions f.catalog process.stageKeys with
      | [] => .error .noItem
      | q :: _ => pure (.ask s q.stageKey q.qid (f.catalog.view q channel))

/-- What a section that is entered has to offer. -/
def entry {σ : Type} [Store σ] (f : Flow) (m : σ) (user : String) (channel : Json)
    (left attempts : Nat) (section_ : Json) : Except Fault Entry := do
  let process ← f.admitted m user left attempts section_
  f.offer m user channel section_ process

/-- The question that keeps a section from being left, if there is one. -/
def departure (f : Flow) (p : Pointer) (s : State) : Except Fault (Option Question) := do
  let stageKeys := f.catalog.stageKeysOf p.sectionKey
  let askIf := ((f.catalog.process? p.sectionKey).map (·.askIf)).getD (.str "")
  if ← s.isComplete f.catalog stageKeys askIf then pure none
  else
    match ← s.missingQuestions f.catalog stageKeys with
    | [] => .error .noItem
    | q :: _ => pure (some q)

/-- The wording of the first question of a section. -/
def opening (f : Flow) (s : State) (section_ stageKey : Json) (q : Except Fault NextQuestion)
    (channel : Json) (transitions : List FlowStatus) (lead : String) (note : TurnNote) :
    Except Fault TurnResult := do
  let intro ← f.composeIntro s (.str "") stageKey channel lead
  let q ← q
  prompt q section_ (transitions ++ [.active]) { intro := intro, note := note }

/-- The wording of a required question that is asked before a section is left. -/
def reopening (f : Flow) (p : Pointer) (q : Question) (transitions : List FlowStatus)
    (channel : Json) (note : TurnNote) : Except Fault TurnResult := do
  let view ← f.catalog.view q channel
  prompt view p.sectionKey transitions { note := note }

/-- The text that closes the stage of a pointer. -/
def closing (f : Flow) (p : Pointer) (s : State) : Except Fault (Option String) :=
  if p.stageKey.isFilled then s.checkpointText? f.catalog p.stageKey else pure none

theorem isKey_flowScope : Bookkeeping.flowScope.isKey = true := rfl

theorem records_completing (m : MemoryStore) (user : String) (section_ : Json)
    (r : CompletionRecord) :
    (m.completing user section_ r).records user = m.records user ++ [r] := by
  rw [MemoryStore.completing, MemoryStore.records_appendCompletion_self,
    MemoryStore.records_patched]

/-- The pointer of a conversation that is over. -/
def ended {σ : Type} (w : World σ) : Pointer :=
  { sectionKey := .null, status := .terminal, sessionId := .str (sessionText (w.sessions + 1)) }

/-- The pointer at the first question of a section. -/
def opened {σ : Type} (w : World σ) (section_ stageKey qid : Json) : Pointer :=
  ⟨section_, qid, stageKey, .active, .str (sessionText (w.sessions + 1))⟩

/-- The world after a section with nothing to ask. -/
def passed (w : World MemoryStore) (user : String) (section_ : Json) : World MemoryStore :=
  { w with
    sessions := w.sessions + 1
    store := w.store.completing user section_
      ⟨section_, .str CompletionRecord.mainPosition, .str (sessionText (w.sessions + 1)),
        .str w.now⟩ }

/-- The world after a section that was left with nothing missing. -/
def departed (w : World MemoryStore) (user : String) (p : Pointer) : World MemoryStore :=
  { w with
    store := w.store.completing user p.sectionKey
      ⟨p.sectionKey, p.stageKey.filledOr (.str CompletionRecord.mainPosition), p.sessionId,
        .str w.now⟩ }

/-- The section that follows a section that was completed in a store. -/
def following (f : Flow) (m : MemoryStore) (user : String) (done : List Json) (section_ : Json) :
    Option Json :=
  Routing.nextAfter f.catalog section_ done ((m.scopes user).read Bookkeeping.flowScope)

variable (f : Flow) (user : String) (channel : Json) (lead : String) (note : TurnNote)
  (w : World MemoryStore)

/-- Recording a completion never fails. -/
theorem run_recordCompletion (section_ sessionId position : Json) :
    (recordCompletion user section_ sessionId position : TurnM MemoryStore _).run w =
      (.ok (Routing.complete (w.store.completed user) section_),
        { w with
          store := w.store.completing user section_
            ⟨section_, position.filledOr (.str CompletionRecord.mainPosition), sessionId,
              .str w.now⟩ }) := by
  unfold recordCompletion
  rw [TurnM.run_bind, TurnM.run_getFields w isKey_flowScope]
  dsimp only
  rw [TurnM.run_bind, TurnM.run_setFields w isKey_flowScope]
  rfl

/-- With nothing left to enter the conversation ends. -/
theorem run_enter_none (left attempts : Nat) (transitions : List FlowStatus) :
    (f.enter user channel lead note left attempts none transitions).run w =
      (f.terminal (transitions ++ [.terminal]) lead note,
        { w with
          sessions := w.sessions + 1
          store := w.store.savePointer user (ended w) }) := by
  unfold enter finish
  rw [TurnM.run_bind]
  show (TurnM.savePointer _ _ >>= _ : TurnM MemoryStore _).run _ = _
  rw [TurnM.run_bind, TurnM.run_savePointer]
  exact TurnM.run_lift _ _

/-- The saves and the wording that a section which was entered leads to. -/
def carryEntry (f : Flow) (user : String) (channel : Json) (lead : String) (note : TurnNote)
    (left attempts : Nat) (section_ : Json) (transitions : List FlowStatus) (sessionId : String) :
    Entry → TurnM MemoryStore TurnResult
  | .ask s stageKey qid q =>
    f.openSection user s section_ sessionId stageKey q qid channel transitions lead note
  | .pass => do
    let done ← recordCompletion user section_ (.str sessionId) (.str CompletionRecord.mainPosition)
    let fields ← TurnM.getFields user Bookkeeping.flowScope
    f.enter user channel lead note left attempts (Routing.nextAfter f.catalog section_ done fields)
      (transitions ++ [.sectionComplete, .routed])

theorem enter_some_eq (left attempts : Nat) (section_ : Json) (transitions : List FlowStatus) :
    (f.enter user channel lead note left attempts (some section_) transitions :
        TurnM MemoryStore _) =
      get >>= fun w => lift (f.admitted w.store user left attempts section_) >>= fun process =>
        TurnM.freshSession >>= fun sessionId => get >>= fun w =>
          lift (f.offer w.store user channel section_ process) >>=
            f.carryEntry user channel lead note (left - 1) (attempts + 1) section_ transitions
              sessionId := by
  rw [enter, TurnM.getFields, bind_assoc]
  refine bind_congr fun w => ?_
  unfold admitted
  rw [TurnM.lift_bind, bind_assoc]
  refine bind_congr fun fields => ?_
  cases left with
  | zero => rfl
  | succ left =>
    cases f.catalog.process? section_ with
    | none => rfl
    | some process =>
      cases hdone : (Routing.completed fields).contains section_ with
      | true => rfl
      | false =>
        simp only [Bool.false_eq_true, if_false, TurnM.lift_pure, pure_bind]
        refine bind_congr fun sessionId => ?_
        unfold offer
        simp only [TurnM.getFields, TurnM.lift_bind, bind_assoc]
        -- the section is admitted, and what it has to offer is read step by step
        refine bind_congr fun w => bind_congr fun stored => bind_congr fun s => ?_
        refine bind_congr fun next => ?_
        cases next with
        | some q => rfl
        | none =>
          simp only [TurnM.lift_bind, bind_assoc]
          refine bind_congr fun complete => ?_
          cases complete with
          | true => rfl
          | false =>
            simp only [Bool.false_eq_true, if_false, TurnM.lift_bind, bind_assoc]
            refine bind_congr fun missing => ?_
            cases missing <;> rfl

/-- A section is entered when it is one of the catalog and not completed, as long as the number of
sections is not used up. -/
theorem admitted_eq_ok_iff {m : MemoryStore} {left attempts : Nat} {section_ : Json}
    {process : Section} : f.admitted m user (left + 1) attempts section_ = .ok process ↔
      f.catalog.process? section_ = some process ∧
        (m.completed user).contains section_ = false := by
  unfold admitted
  rw [MemoryStore.getFields_of_isKey isKey_flowScope, Outcome.ok_bind]
  change (match left + 1, f.catalog.process? section_ with
    | _ + 1, some process => if (m.completed user).contains section_ then _ else _
    | _, _ => _) = _ ↔ _
  cases f.catalog.process? section_ with
  | none => simp
  | some found => cases (m.completed user).contains section_ <;> simp

theorem admitted_zero {m : MemoryStore} {attempts : Nat} {section_ : Json} :
    f.admitted m user 0 attempts section_ =
      .error (.noEligibleTarget user section_ (attempts + 1)) := by
  unfold admitted
  rw [MemoryStore.getFields_of_isKey isKey_flowScope, Outcome.ok_bind]

/-- How many sections may still be entered does not matter to one that is entered. -/
theorem admitted_succ (m : MemoryStore) (left attempts : Nat) (section_ : Json) :
    f.admitted m user (left + 1) attempts section_ = f.admitted m user 1 attempts section_ := by
  unfold admitted
  refine bind_congr fun fields => ?_
  cases f.catalog.process? section_ <;> rfl

/-- The number of sections that may still be entered is positive for one that is entered. -/
theorem ne_zero_of_admitted {m : MemoryStore} {left attempts : Nat} {section_ : Json}
    {process : Section} (h : f.admitted m user left attempts section_ = .ok process) :
    ∃ rest, left = rest + 1 := by
  cases left with
  | succ rest => exact ⟨rest, rfl⟩
  | zero =>
    rw [admitted_zero] at h
    cases h

/-- Only sections of the catalog are entered. -/
theorem process?_of_admitted {m : MemoryStore} {left attempts : Nat} {section_ : Json}
    {process : Section} (h : f.admitted m user left attempts section_ = .ok process) :
    f.catalog.process? section_ = some process := by
  obtain ⟨rest, rfl⟩ := f.ne_zero_of_admitted user h
  exact ((f.admitted_eq_ok_iff user).1 h).1

/-- Entering a section takes a session, and then carries out what the section has to offer. -/
theorem run_enter_some (left attempts : Nat) (section_ : Json) (transitions : List FlowStatus) :
    (f.enter user channel lead note (left + 1) attempts (some section_) transitions).run w =
      match f.admitted w.store user 1 attempts section_ with
      | .error e => (.error e, w)
      | .ok process =>
        (lift (f.offer w.store user channel section_ process) >>=
          f.carryEntry user channel lead note left (attempts + 1) section_ transitions
            (sessionText (w.sessions + 1))).run { w with sessions := w.sessions + 1 } := by
  rw [enter_some_eq, TurnM.run_get_bind, TurnM.run_lift_bind, admitted_succ]
  cases f.admitted w.store user 1 attempts section_ <;> rfl

theorem run_enter_of_admitted {left attempts : Nat} {section_ : Json} {process : Section}
    (transitions : List FlowStatus)
    (h : f.admitted w.store user left attempts section_ = .ok process) :
    (f.enter user channel lead note left attempts (some section_) transitions).run w =
      (lift (f.offer w.store user channel section_ process) >>=
        f.carryEntry user channel lead note (left - 1) (attempts + 1) section_ transitions
          (sessionText (w.sessions + 1))).run { w with sessions := w.sessions + 1 } := by
  rw [enter_some_eq, TurnM.run_get_bind, TurnM.run_lift_bind, h]
  rfl

variable {left attempts : Nat} {section_ : Json}

/-- A section that cannot be entered leaves the store alone. -/
theorem run_enter_error {e : Fault} (transitions : List FlowStatus)
    (h : f.entry w.store user channel left attempts section_ = .error e) :
    ∃ sessions, (f.enter user channel lead note left attempts (some section_) transitions).run w =
      (.error e, { w with sessions := sessions }) := by
  rcases Outcome.bind_eq_error_iff.1 h with h | ⟨process, hadmitted, hoffer⟩
  · refine ⟨w.sessions, ?_⟩
    rw [enter_some_eq, TurnM.run_get_bind, TurnM.run_lift_bind, h]
  · refine ⟨w.sessions + 1, ?_⟩
    rw [f.run_enter_of_admitted user channel lead note w transitions hadmitted,
      TurnM.run_lift_bind, hoffer]

/-- A section with a question asks it. -/
theorem run_enter_ask {s : State} {stageKey qid : Json} {q : Except Fault NextQuestion}
    (transitions : List FlowStatus)
    (h : f.entry w.store user channel left attempts section_ = .ok (.ask s stageKey qid q)) :
    (f.enter user channel lead note left attempts (some section_) transitions).run w =
      (f.opening s section_ stageKey q channel transitions lead note,
        { w with
          sessions := w.sessions + 1
          store := w.store.savePointer user (opened w section_ stageKey qid) }) := by
  obtain ⟨process, hadmitted, hoffer⟩ := Outcome.bind_eq_ok_iff.1 h
  rw [f.run_enter_of_admitted user channel lead note w transitions hadmitted, TurnM.run_lift_bind,
    hoffer]
  dsimp only
  unfold carryEntry openSection
  rw [TurnM.run_bind, TurnM.run_savePointer]
  dsimp only
  simp only [← TurnM.lift_bind, TurnM.run_lift]
  rfl

/-- A section with nothing to ask is completed, and the next one is entered. -/
theorem run_enter_pass (transitions : List FlowStatus)
    (h : f.entry w.store user channel left attempts section_ = .ok .pass) :
    ∃ rest, left = rest + 1 ∧
      (f.enter user channel lead note left attempts (some section_) transitions).run w =
        (f.enter user channel lead note rest (attempts + 1)
          (f.following (passed w user section_).store user
            (Routing.complete (w.store.completed user) section_) section_)
          (transitions ++ [.sectionComplete, .routed])).run (passed w user section_) := by
  obtain ⟨process, hadmitted, hoffer⟩ := Outcome.bind_eq_ok_iff.1 h
  obtain ⟨rest, rfl⟩ := f.ne_zero_of_admitted user hadmitted
  refine ⟨rest, rfl, ?_⟩
  rw [f.run_enter_of_admitted user channel lead note w transitions hadmitted, TurnM.run_lift_bind,
    hoffer]
  dsimp only
  unfold carryEntry
  rw [TurnM.run_bind, run_recordCompletion]
  dsimp only
  rw [TurnM.run_bind, TurnM.run_getFields _ isKey_flowScope]
  rfl

/-- What holds of every way in which entering a section may end, and is passed on by a section that
is completed on the spot, holds of entering sections one after the other.  The section that routing
leads to is told along. -/
theorem run_enter_induct_target
    {P : World MemoryStore → Option Json → List FlowStatus →
      Except Fault TurnResult × World MemoryStore → Prop}
    (ends : ∀ w transitions, P w none transitions
      (f.terminal (transitions ++ [.terminal]) lead note,
        { w with
          sessions := w.sessions + 1
          store := w.store.savePointer user (ended w) }))
    (fails : ∀ (w : World MemoryStore) section_ transitions e sessions,
      P w (some section_) transitions (.error e, { w with sessions := sessions }))
    (asks : ∀ (w : World MemoryStore) transitions left attempts section_ s stageKey qid q,
      f.entry w.store user channel left attempts section_ = .ok (.ask s stageKey qid q) →
      P w (some section_) transitions
        (f.opening s section_ stageKey q channel transitions lead note,
          { w with
            sessions := w.sessions + 1
            store := w.store.savePointer user (opened w section_ stageKey qid) }))
    (passes : ∀ (w : World MemoryStore) transitions left attempts section_ outcome,
      f.entry w.store user channel left attempts section_ = .ok .pass →
      P (passed w user section_)
        (f.following (passed w user section_).store user
          (Routing.complete (w.store.completed user) section_) section_)
        (transitions ++ [.sectionComplete, .routed]) outcome →
      P w (some section_) transitions outcome)
    (left attempts : Nat) (target : Option Json) (transitions : List FlowStatus)
    (w : World MemoryStore) :
    P w target transitions
      ((f.enter user channel lead note left attempts target transitions).run w) := by
  -- on the number of sections that may still be entered, which every hop uses up
  induction left using Nat.strongRecOn generalizing attempts target transitions w with
  | ind left ih =>
    cases target with
    | none =>
      rw [run_enter_none]
      exact ends w transitions
    | some section_ =>
      rcases hentry : f.entry w.store user channel left attempts section_ with
        e | ⟨s, stageKey, qid, q⟩ | _
      · obtain ⟨sessions, h⟩ := f.run_enter_error user channel lead note w transitions hentry
        rw [h]
        exact fails w section_ transitions e sessions
      · rw [f.run_enter_ask user channel lead note w transitions hentry]
        exact asks w transitions left attempts section_ s stageKey qid q hentry
      · obtain ⟨rest, rfl, h⟩ := f.run_enter_pass user channel lead note w transitions hentry
        rw [h]
        exact passes w transitions _ attempts section_ _ hentry
          (ih rest (Nat.lt_succ_self rest) _ _ _ _)

/-- The same for what does not depend on the section that routing leads to. -/
theorem run_enter_induct
    {P : World MemoryStore → List FlowStatus → Except Fault TurnResult × World MemoryStore → Prop}
    (ends : ∀ w transitions, P w transitions
      (f.terminal (transitions ++ [.terminal]) lead note,
        { w with
          sessions := w.sessions + 1
          store := w.store.savePointer user (ended w) }))
    (fails : ∀ (w : World MemoryStore) transitions e sessions,
      P w transitions (.error e, { w with sessions := sessions }))
    (asks : ∀ (w : World MemoryStore) transitions left attempts section_ s stageKey qid q,
      f.entry w.store user channel left attempts section_ = .ok (.ask s stageKey qid q) →
      P w transitions (f.opening s section_ stageKey q channel transitions lead note,
        { w with
          sessions := w.sessions + 1
          store := w.store.savePointer user (opened w section_ stageKey qid) }))
    (passes : ∀ (w : World MemoryStore) transitions left attempts section_ outcome,
      f.entry w.store user channel left attempts section_ = .ok .pass →
      P (passed w user section_) (transitions ++ [.sectionComplete, .routed]) outcome →
      P w transitions outcome)
    (left attempts : Nat) (target : Option Json) (transitions : List FlowStatus)
    (w : World MemoryStore) :
    P w transitions ((f.enter user channel lead note left attempts target transitions).run w) :=
  f.run_enter_induct_target user channel lead note
    (P := fun w _ transitions outcome => P w transitions outcome) ends
    (fun w _ transitions e sessions => fails w transitions e sessions) asks passes left attempts
    target transitions w

/-- Starting enters the first section that is eligible. -/
theorem run_start :
    (f.start user channel).run w =
      (f.enter user channel "" .nothing f.maxHops 0
        (Routing.next f.catalog (w.store.completed user)
          ((w.store.scopes user).read Bookkeeping.flowScope)) [.routed]).run w := by
  unfold start
  rw [TurnM.run_bind, TurnM.run_getFields _ isKey_flowScope]
  rfl

/-- Leaving a section asks a required question that is missing; otherwise the section is completed
before the text that closes its stage is written, and the next one is entered. -/
theorem run_leave (p : Pointer) (s : State) (transitions : List FlowStatus) :
    (f.leave user p s transitions channel note).run w =
      match f.departure p s with
      | .error e => (.error e, w)
      | .ok (some q) =>
        (f.reopening p q transitions channel note,
          { w with store := w.store.savePointer user (p.advance q.qid q.stageKey) })
      | .ok none =>
        match f.closing p s with
        | .error e => (.error e, departed w user p)
        | .ok lead =>
          (f.enter user channel (lead.getD "") note f.maxHops 0
            (f.following (departed w user p).store user
              (Routing.complete (w.store.completed user) p.sectionKey) p.sectionKey)
            (transitions ++ [.sectionComplete, .routed])).run (departed w user p) := by
  unfold leave departure
  dsimp only
  rw [TurnM.run_lift_bind]
  cases s.isComplete f.catalog (f.catalog.stageKeysOf p.sectionKey)
      (((f.catalog.process? p.sectionKey).map (·.askIf)).getD (.str "")) with
  | error e => rfl
  | ok isComplete =>
    cases isComplete with
    | true =>
      simp only [if_true, Outcome.ok_bind, Outcome.pure_eq_ok]
      -- from here on the section is recorded, also when its closing text fails
      rw [TurnM.run_bind, run_recordCompletion]
      dsimp only
      rw [TurnM.run_bind, TurnM.run_getFields _ isKey_flowScope]
      dsimp only
      unfold closing
      cases p.stageKey.isFilled with
      | true =>
        simp only [if_true]
        rw [TurnM.run_lift_bind]
        cases s.checkpointText? f.catalog p.stageKey <;> rfl
      | false => rfl
    | false =>
      simp only [Bool.false_eq_true, if_false, Outcome.ok_bind]
      rw [TurnM.run_lift_bind]
      cases s.missingQuestions f.catalog (f.catalog.stageKeysOf p.sectionKey) with
      | error e => rfl
      | ok missing =>
        cases missing with
        | nil => rfl
        | cons q rest =>
          dsimp only
          rw [TurnM.run_bind, TurnM.run_savePointer]
          dsimp only
          rw [← TurnM.lift_bind, TurnM.run_lift]
          rfl

/-- The ways in which leaving a section may end. -/
theorem leave_cases {f : Flow} {user : String} {channel : Json} {note : TurnNote}
    {w w' : World MemoryStore} {p : Pointer} {s : State} {transitions : List FlowStatus}
    {r : Except Fault TurnResult}
    (h : (f.leave user p s transitions channel note).run w = (r, w')) :
    (∃ e, f.departure p s = .error e ∧ r = .error e ∧ w' = w) ∨
    (∃ q, f.departure p s = .ok (some q) ∧ r = f.reopening p q transitions channel note ∧
      w' = { w with store := w.store.savePointer user (p.advance q.qid q.stageKey) }) ∨
    (∃ e, f.departure p s = .ok none ∧ r = .error e ∧ w' = departed w user p) ∨
    ∃ lead target, f.departure p s = .ok none ∧
      (f.enter user channel lead note f.maxHops 0 target
        (transitions ++ [.sectionComplete, .routed])).run (departed w user p) = (r, w') := by
  rw [run_leave] at h
  rcases hdeparture : f.departure p s with e | _ | q <;> rw [hdeparture] at h
  · cases h
    exact .inl ⟨e, rfl, rfl, rfl⟩
  · dsimp only at h
    cases hclosing : f.closing p s with
    | error e =>
      rw [hclosing] at h
      cases h
      exact .inr (.inr (.inl ⟨e, rfl, rfl, rfl⟩))
    | ok lead =>
      rw [hclosing] at h
      exact .inr (.inr (.inr ⟨lead.getD "", _, rfl, h⟩))
  · cases h
    exact .inr (.inl ⟨q, rfl, rfl, rfl⟩)

end Flow

end Questionnaire
