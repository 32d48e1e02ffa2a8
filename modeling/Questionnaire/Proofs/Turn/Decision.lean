import Questionnaire.Proofs.State.Applying
import Questionnaire.Proofs.State.Selection
import Questionnaire.Proofs.Turn.Sections
import Questionnaire.Turn.Flow

/-!
# What a turn decides

A turn first reads and computes, and only then saves anything.  Everything before the first save is
a function of the store and the answer, its decision; what follows only carries the decision out.

## Main Definitions

* `Decision` - the ways in which a turn may go on
* `Flow.decide` - the decision of a turn
* `Flow.carryOut` - the saves and the wording that a decision leads to
* `Decision.Grounded` - what has led to a decision

## Main Statements

* `Flow.processTurn_eq`, `Flow.turn_cases` - a turn decides and carries its decision out
* `Flow.acceptance_cases` - the ways in which an accepted answer may be carried out
* `Flow.grounded_of_decide` - what a decision tells about the store
-/

namespace Questionnaire

/-- A question about a table that goes on collecting rows. -/
structure Collection where
  /-- The rows that were collected so far. -/
  rows : List Json
  /-- The rows in written form. -/
  written : String
  /-- The question as it is shown. -/
  view : NextQuestion
  /-- What the user is told. -/
  message : Message
  /-- The values of the placeholders. -/
  values : Object
  /-- What the turn did. -/
  note : TurnNote

/-- What becomes of an answer when it is read. -/
inductive Taken where
  /-- It goes into the draft of a table. -/
  | collected (c : Collection)
  /-- It cannot be read. -/
  | rejected (r : Answer.Rejection)
  /-- It is applied and gives a new state. -/
  | applied (s : State) (a : Applied)

/-- An answer that passed all checks. -/
structure Acceptance where
  /-- The state that was checked. -/
  state : State
  /-- The values that are stored. -/
  patch : Fields
  /-- What the turn did. -/
  note : TurnNote
  /-- The reasons to hand the conversation over. -/
  fired : List FiredHandoff
  /-- The next question of the section. -/
  next : Option NextQuestion

/-- What a turn does after it has read the store and the answer. -/
inductive Decision where
  /-- The conversation is over. -/
  | closed
  /-- The conversation stands nowhere, or is lost in a section that does not exist. -/
  | begin (isLost : Bool)
  /-- Another question is expected. -/
  | redirect (p : Pointer) (s : State) (e : NextQuestion)
  /-- Nothing is pending in the section. -/
  | depart (p : Pointer) (s : State)
  /-- The preparer sets the answer aside. -/
  | reask (p : Pointer) (q : Question)
  /-- The answer is rejected. -/
  | reject (p : Pointer) (stored : Fields) (q : Question) (error : TurnError)
  /-- The answer goes into the draft of a table. -/
  | collect (p : Pointer) (q : Question) (c : Collection)
  /-- The answer is stored. -/
  | accept (p : Pointer) (q : Question) (a : Acceptance)

/-- An answer is accepted, and what is stored has a property. -/
def Decision.Accepting (d : Decision) (P : Pointer → Question → Acceptance → Prop) : Prop :=
  ∃ p q a, d = .accept p q a ∧ P p q a

instance decidableAccepting (d : Decision) (P : Pointer → Question → Acceptance → Prop)
    [∀ p q a, Decidable (P p q a)] : Decidable (d.Accepting P) :=
  match d with
  | .accept p q a => decidable_of_iff (P p q a)
    ⟨fun h => ⟨p, q, a, rfl, h⟩, fun ⟨_, _, _, heq, h⟩ => by cases heq; exact h⟩
  | .closed | .begin _ | .redirect .. | .depart .. | .reask .. | .reject .. | .collect .. =>
    isFalse (by simp [Decision.Accepting])

namespace Flow

/-- What becomes of an answer to a question about a table. -/
def takingRows (f : Flow) (s : State) (q : Question) (answer : String) (channel : Json) :
    Except Fault Taken := do
  let rows := draftRows s q
  let example_ ← Answer.exampleRow q.tableColumns
  let view ← f.catalog.view q channel
  if Answer.closesTable answer then
    if rows.isEmpty then
      let written ← (Json.arr rows).dump
      pure (.collected ⟨rows, written, view, .tableStart, [("example", .str example_)], .nothing⟩)
    else
      let r ← s.applyValue f.catalog q (.arr rows)
      pure (.applied r.1 r.2)
  else
    match ← Answer.readRows? answer q.tableColumns with
    | none =>
      let written ← (Json.arr rows).dump
      pure (.collected ⟨rows, written, view, .tableRetry, [("example", .str example_)], .nothing⟩)
    | some more =>
      let all := rows ++ more.map fun row => .obj (Fields.toObject row)
      let written ← (Json.arr all).dump
      pure (.collected ⟨all, written, view, .tableMore, [], .tableRows all.length⟩)

/-- What becomes of an answer to a question. -/
def taking (f : Flow) (s : State) (q : Question) (answer : String) (channel : Json) :
    Except Fault Taken :=
  if q.isTable then f.takingRows s q answer channel
  else do
    match ← s.applyAnswer f.catalog q answer with
    | .ok r => pure (.applied r.1 r.2)
    | .error rejection => pure (.rejected rejection)

/-- What the checks make of an answer that was applied. -/
def judge (f : Flow) (p : Pointer) (q : Question) (extra : Fields) (s : State) (applied : Applied)
    (channel : Json) : Except Fault (ValidationFailure ⊕ Acceptance) := do
  let (s, derived) ← s.applyDerived f.catalog
  match ← s.firstFailure? f.catalog with
  | some failure => pure (.inl failure)
  | none =>
    let pending ← s.pendingAttachments f.catalog
    let fired := s.firedTriggers f.catalog
    let next ← s.nextQuestion? f.catalog (some (f.catalog.stageKeysOf p.sectionKey)) channel
    let notes ← bookkeeping s q pending fired next.isNone
    pure (.inr ⟨s, answerPatch extra derived applied notes,
      .applied [(applied.fieldKey, applied.value)] derived pending.length, fired, next⟩)

/-- An answer as the preparer leaves it. -/
def prepared (f : Flow) (q : Question) (s : State) (answer : String) : Prepared :=
  match f.preparer with
  | some prepare => prepare answer (some q) s.values
  | none => { answer := answer }

variable {σ : Type} [Store σ]

/-- The decision of a turn that stands in a section. -/
def decideActive (f : Flow) (m : σ) (user : String) (p : Pointer) (answer channel : Json) :
    Except Fault Decision := do
  let stored ← Store.getFields m user p.sectionKey
  let s ← f.loadState stored
  let question ← f.questionAt user p.position
  let expected ← s.nextQuestion? f.catalog (some (f.catalog.stageKeysOf p.sectionKey)) channel
  match expected.filter fun e => !e.qid.equal p.position with
  | some e => pure (.redirect p s e)
  | none =>
    match question with
    | none => pure (.depart p s)
    | some q =>
      let answer ← Answer.given answer
      let prepared := f.prepared q s answer
      if prepared.reask then pure (.reask p q)
      else
        match ← f.taking s q prepared.answer channel with
        | .collected c => pure (.collect p q c)
        | .rejected r => pure (.reject p stored q (.rejection r))
        | .applied s applied =>
          match ← f.judge p q prepared.extra s applied channel with
          | .inl failure => pure (.reject p stored q (.failure failure))
          | .inr a => pure (.accept p q a)

/-- The decision of a turn. -/
def decide (f : Flow) (m : σ) (user : String) (answer channel : Json) : Except Fault Decision := do
  match ← Store.getPointer m user with
  | none => pure (.begin false)
  | some p =>
    if p.isTerminal then pure .closed
    else
      let key ← p.sectionKey.asKey
      match f.catalog.process? key with
      | none => pure (.begin true)
      | some _ => f.decideActive m user p answer channel

open TurnM (lift)

/-- The wording of a question that is asked in the place of the pending one. -/
def redirection (f : Flow) (p : Pointer) (s : State) (e : NextQuestion) (channel : Json) :
    Except Fault TurnResult := do
  let intro ← f.composeIntro s p.stageKey e.stageKey channel ""
  prompt e p.sectionKey [.active] { intro := intro, isStale := true }

/-- The wording of a question that is asked again. -/
def asking (f : Flow) (p : Pointer) (q : Question) (channel : Json) (error : Option TurnError) :
    Except Fault TurnResult := do
  let view ← f.catalog.view q channel
  prompt view p.sectionKey [.active] { error := error }

/-- The wording of a question about a table that goes on. -/
def collecting (f : Flow) (p : Pointer) (c : Collection) : Except Fault TurnResult := do
  let text ← c.message.render f.catalog.messages c.values
  prompt c.view p.sectionKey [.active] { text := text, note := c.note }

/-- The wording of the next question of a section. -/
def advancing (f : Flow) (p : Pointer) (a : Acceptance) (nq : NextQuestion) (channel : Json) :
    Except Fault TurnResult := do
  let intro ← f.composeIntro a.state p.stageKey nq.stageKey channel ""
  prompt nq p.sectionKey [.active] { intro := intro, note := a.note }

/-- The values that are stored while a table is collected. -/
def draftPatch (q : Question) (c : Collection) : Fields :=
  [(Bookkeeping.draftQuestion, q.qid), (Bookkeeping.draftRows, .str c.written)]

/-- Store an accepted answer and go on. -/
def carryAcceptance (f : Flow) (user : String) (p : Pointer) (a : Acceptance) (channel : Json) :
    TurnM σ TurnResult := do
  TurnM.setFields user p.sectionKey a.patch
  if !a.fired.isEmpty then
    let _ ← recordCompletion user p.sectionKey p.sessionId p.stageKey
    TurnM.deletePointer user
    lift (f.handoff p.sectionKey a.fired [.active, .sectionComplete] a.note)
  else
    match a.next with
    | some nq =>
      TurnM.savePointer user (p.advance nq.qid nq.stageKey)
      lift (f.advancing p a nq channel)
    | none => f.leave user p a.state [.active] channel a.note

/-- The saves and the wording that a decision leads to. -/
def carryOut (f : Flow) (user : String) (channel : Json) : Decision → TurnM σ TurnResult
  | .closed => lift (f.terminal [.terminal] "" .nothing)
  | .begin isLost => do
    if isLost then TurnM.deletePointer user
    f.start user channel
  | .redirect p s e => do
    TurnM.savePointer user (p.advance e.qid e.stageKey)
    lift (f.redirection p s e channel)
  | .depart p s => f.leave user p s [.active] channel .nothing
  | .reask p q => lift (f.asking p q channel none)
  | .reject p stored q error => do
    clearTransient user p.sectionKey stored
    lift (f.asking p q channel (some error))
  | .collect p q c => do
    TurnM.setFields user p.sectionKey (draftPatch q c)
    lift (f.collecting p c)
  | .accept p _ a => f.carryAcceptance user p a channel

end Flow

namespace Flow

variable {σ : Type} [Store σ]

open TurnM (lift)

/-- What an answer that was taken leads to. -/
def carryTaken (f : Flow) (user : String) (p : Pointer) (stored : Fields) (q : Question)
    (channel : Json) : Taken → TurnM σ (TurnResult ⊕ State × Applied)
  | .collected c => do
    TurnM.setFields user p.sectionKey (draftPatch q c)
    let r ← lift (f.collecting p c)
    pure (.inl r)
  | .rejected r => do
    clearTransient user p.sectionKey stored
    let r ← lift (f.asking p q channel (some (.rejection r)))
    pure (.inl r)
  | .applied s a => pure (.inr (s, a))

theorem takeRows_eq (f : Flow) (user : String) (p : Pointer) (stored : Fields) (s : State)
    (q : Question) (answer : String) (channel : Json) :
    (f.takeRows user p.sectionKey s q answer [.active] channel : TurnM σ _) =
      lift (f.takingRows s q answer channel) >>= f.carryTaken user p stored q channel := by
  unfold takeRows takingRows
  simp only [TurnM.lift_bind, bind_assoc]
  refine bind_congr fun example_ => bind_congr fun view => ?_
  cases Answer.closesTable answer with
  | true =>
    cases (draftRows s q).isEmpty <;>
      simp only [Bool.false_eq_true, if_true, if_false, TurnM.lift_bind, bind_assoc,
        TurnM.lift_pure, pure_bind, carryTaken, saveDraft, collecting, draftPatch]
  | false =>
    simp only [Bool.false_eq_true, if_false, TurnM.lift_bind, bind_assoc]
    refine bind_congr fun more => ?_
    cases more <;> simp only [TurnM.lift_bind, bind_assoc, TurnM.lift_pure, pure_bind, carryTaken,
      saveDraft, collecting, draftPatch]

theorem takeAnswer_eq (f : Flow) (user : String) (p : Pointer) (stored : Fields) (s : State)
    (q : Question) (answer : String) (channel : Json) :
    (f.takeAnswer user p.sectionKey stored s q answer [.active] channel : TurnM σ _) =
      lift (f.taking s q answer channel) >>= f.carryTaken user p stored q channel := by
  unfold takeAnswer taking
  cases q.isTable with
  | true => simpa only [if_true] using f.takeRows_eq user p stored s q answer channel
  | false =>
    simp only [Bool.false_eq_true, if_false, TurnM.lift_bind, bind_assoc]
    refine bind_congr fun outcome => ?_
    cases outcome <;> simp only [TurnM.lift_bind, bind_assoc, TurnM.lift_pure, pure_bind,
      carryTaken, asking]

theorem settle_eq (f : Flow) (user : String) (p : Pointer) (stored : Fields) (q : Question)
    (extra : Fields) (s : State) (applied : Applied) (channel : Json) :
    (f.settle user p stored q extra s applied [.active] channel : TurnM σ _) =
      lift (f.judge p q extra s applied channel) >>= fun verdict =>
        match verdict with
        | .inl failure => do
          clearTransient user p.sectionKey stored
          lift (f.asking p q channel (some (.failure failure)))
        | .inr a => f.carryAcceptance user p a channel := by
  unfold settle judge
  simp only [TurnM.lift_bind, bind_assoc]
  refine bind_congr fun derived => bind_congr fun failure? => ?_
  cases failure? with
  | some failure =>
    simp only [TurnM.lift_bind, TurnM.lift_pure, pure_bind, asking]
  | none =>
    simp only [TurnM.lift_bind, bind_assoc, TurnM.lift_pure, pure_bind, carryAcceptance]
    refine bind_congr fun pending => bind_congr fun next => bind_congr fun notes => ?_
    refine bind_congr fun _ => ?_
    cases (State.firedTriggers f.catalog derived.1).isEmpty with
    | false => rfl
    | true =>
      cases next <;> simp only [Bool.not_true, Bool.false_eq_true, if_false, TurnM.lift_bind,
        advancing]

theorem processActive_eq (f : Flow) (user : String) (p : Pointer) (answer channel : Json) :
    (f.processActive user p answer channel : TurnM σ _) =
      get >>= fun w => lift (f.decideActive w.store user p answer channel) >>=
        f.carryOut user channel := by
  unfold processActive TurnM.getFields
  simp only [bind_assoc]
  refine bind_congr fun w => ?_
  unfold decideActive
  simp only [TurnM.lift_bind, bind_assoc]
  refine bind_congr fun stored => bind_congr fun s => bind_congr fun question => ?_
  -- the same reads stand in both, so only what follows from them is compared
  refine bind_congr fun expected => ?_
  cases expected.filter fun e => !e.qid.equal p.position with
  | some e => simp only [TurnM.lift_pure, TurnM.lift_bind, pure_bind, carryOut, redirection]
  | none =>
    cases question with
    | none => simp only [TurnM.lift_pure, pure_bind, carryOut]
    | some q =>
      simp only [TurnM.lift_bind, bind_assoc]
      refine bind_congr fun given => ?_
      show (if (f.prepared q s given).reask then _ else _) = _
      cases (f.prepared q s given).reask with
      | true =>
        simp only [if_true, TurnM.lift_pure, TurnM.lift_bind, pure_bind, carryOut, asking]
      | false =>
        simp only [Bool.false_eq_true, if_false, TurnM.lift_bind, bind_assoc, takeAnswer_eq]
        refine bind_congr fun taken => ?_
        cases taken with
        | collected c =>
          simp only [TurnM.lift_pure, pure_bind, bind_assoc, carryTaken, carryOut, bind_pure]
        | rejected r =>
          simp only [TurnM.lift_pure, pure_bind, bind_assoc, carryTaken, carryOut, bind_pure]
        | applied s a =>
          simp only [carryTaken, pure_bind, settle_eq, TurnM.lift_bind, bind_assoc]
          refine bind_congr fun verdict => ?_
          cases verdict <;> simp only [TurnM.lift_pure, pure_bind, carryOut]

/-- A turn decides, and then carries its decision out. -/
theorem processTurn_eq (f : Flow) (user : String) (answer channel : Json) :
    (f.processTurn user answer channel : TurnM σ _) =
      get >>= fun w => lift (f.decide w.store user answer channel) >>=
        f.carryOut user channel := by
  -- the world is looked at twice, so the two sides are compared in each world
  refine TurnM.ext_run fun w => ?_
  unfold processTurn TurnM.getPointer decide
  rw [bind_assoc, TurnM.run_get_bind, TurnM.run_get_bind, TurnM.run_lift_bind, TurnM.lift_bind,
    bind_assoc, TurnM.run_lift_bind]
  rcases Store.getPointer w.store user with e | _ | p
  · rfl
  · rfl
  · cases hp : p.isTerminal with
    | true => simp only [hp, if_true]; rfl
    | false =>
      simp only [hp, Bool.false_eq_true, if_false, TurnM.lift_bind, bind_assoc,
        TurnM.run_lift_bind]
      cases p.sectionKey.asKey with
      | error e => rfl
      | ok key =>
        cases hk : f.catalog.process? key with
        | none => simp only [hk]; rfl
        | some _ =>
          simp only [hk, processActive_eq, TurnM.run_get_bind]
          exact TurnM.run_lift_bind _ _ w

theorem run_processTurn (f : Flow) (user : String) (answer channel : Json) (w : World σ) :
    (f.processTurn user answer channel).run w =
      match f.decide w.store user answer channel with
      | .ok d => (f.carryOut user channel d).run w
      | .error e => (.error e, w) := by
  rw [processTurn_eq, TurnM.run_get_bind, TurnM.run_lift_bind]
  cases f.decide w.store user answer channel <;> rfl

/-- A turn fails before it saves anything, or carries its decision out. -/
theorem turn_cases {f : Flow} {user : String} {answer channel : Json} {w w' : World σ}
    {r : Except Fault TurnResult} (h : (f.processTurn user answer channel).run w = (r, w')) :
    (∃ e, f.decide w.store user answer channel = .error e ∧ r = .error e ∧ w' = w) ∨
      ∃ d, f.decide w.store user answer channel = .ok d ∧
        (f.carryOut user channel d).run w = (r, w') := by
  rw [run_processTurn] at h
  cases hdecide : f.decide w.store user answer channel with
  | error e =>
    rw [hdecide] at h
    cases h
    exact .inl ⟨e, rfl, rfl, rfl⟩
  | ok d =>
    rw [hdecide] at h
    exact .inr ⟨d, rfl, h⟩

/-- The store after an answer was rejected: the extracted answer is emptied if there is one. -/
def cleared (m : MemoryStore) (user : String) (section_ : Json) (stored : Fields) : MemoryStore :=
  if ((Assoc.valueAt? Bookkeeping.transient stored).getD .null).isFilled then
    m.patched user section_ [(Bookkeeping.transient, .str "")]
  else m

theorem run_clearTransient {section_ : Json} (hkey : section_.isKey = true) (user : String)
    (stored : Fields) (w : World MemoryStore) :
    (clearTransient user section_ stored : TurnM MemoryStore Unit).run w =
      (.ok (), { w with store := cleared w.store user section_ stored }) := by
  unfold clearTransient cleared
  split
  · exact TurnM.run_setFields w hkey user _
  · rfl

/-- A lost conversation starts anew, its pointer forgotten. -/
theorem run_begin (f : Flow) (user : String) (channel : Json) (isLost : Bool)
    (w : World MemoryStore) :
    (f.carryOut user channel (.begin isLost)).run w =
      (f.start user channel).run
        (if isLost then { w with store := w.store.deletePointer user } else w) := by
  cases isLost <;> rfl

section

variable {f : Flow} {user : String} {channel : Json} {w : World MemoryStore}

theorem run_closed :
    (f.carryOut user channel .closed).run w = (f.terminal [.terminal] "" .nothing, w) :=
  TurnM.run_lift _ _

/-- The pointer moves to the question that is expected. -/
theorem run_redirect (p : Pointer) (s : State) (e : NextQuestion) :
    (f.carryOut user channel (.redirect p s e)).run w =
      (f.redirection p s e channel,
        { w with store := w.store.savePointer user (p.advance e.qid e.stageKey) }) := by
  rw [carryOut, TurnM.run_bind, TurnM.run_savePointer]
  exact TurnM.run_lift _ _

theorem run_reask (p : Pointer) (q : Question) :
    (f.carryOut user channel (.reask p q)).run w = (f.asking p q channel none, w) :=
  TurnM.run_lift _ _

/-- An answer that was extracted is emptied when it is rejected. -/
theorem run_reject {p : Pointer} (hkey : p.sectionKey.isKey = true) (stored : Fields)
    (q : Question) (error : TurnError) :
    (f.carryOut user channel (.reject p stored q error)).run w =
      (f.asking p q channel (some error),
        { w with store := cleared w.store user p.sectionKey stored }) := by
  rw [carryOut, TurnM.run_bind, run_clearTransient hkey]
  exact TurnM.run_lift _ _

/-- The rows of a table are kept in its section. -/
theorem run_collect {p : Pointer} (hkey : p.sectionKey.isKey = true) (q : Question)
    (c : Collection) :
    (f.carryOut user channel (.collect p q c)).run w =
      (f.collecting p c,
        { w with store := w.store.patched user p.sectionKey (draftPatch q c) }) := by
  rw [carryOut, TurnM.run_bind, TurnM.run_setFields w hkey]
  exact TurnM.run_lift _ _

end

/-- The ways in which an accepted answer may be carried out. -/
theorem acceptance_cases {f : Flow} {user : String} {channel : Json} {w w' : World MemoryStore}
    {p : Pointer} {a : Acceptance} {r : Except Fault TurnResult}
    (hkey : p.sectionKey.isKey = true)
    (h : (f.carryAcceptance user p a channel).run w = (r, w')) :
    (a.fired ≠ [] ∧ r = f.handoff p.sectionKey a.fired [.active, .sectionComplete] a.note ∧
      w' = { w with
        store := (departed { w with store := w.store.patched user p.sectionKey a.patch }
          user p).store.deletePointer user }) ∨
    (∃ nq, a.fired = [] ∧ a.next = some nq ∧ r = f.advancing p a nq channel ∧
      w' = { w with
        store := (w.store.patched user p.sectionKey a.patch).savePointer user
          (p.advance nq.qid nq.stageKey) }) ∨
    (a.fired = [] ∧ a.next = none ∧
      (f.leave user p a.state [.active] channel a.note).run
        { w with store := w.store.patched user p.sectionKey a.patch } = (r, w')) := by
  unfold carryAcceptance at h
  rw [TurnM.run_bind, TurnM.run_setFields w hkey] at h
  dsimp only at h
  cases hfired : a.fired with
  | cons reason rest =>
    rw [hfired, List.isEmpty_cons, Bool.not_false, if_pos rfl, TurnM.run_bind,
      run_recordCompletion] at h
    dsimp only at h
    rw [TurnM.run_bind, TurnM.run_deletePointer] at h
    dsimp only at h
    rw [TurnM.run_lift] at h
    cases h
    exact .inl ⟨List.cons_ne_nil _ _, rfl, rfl⟩
  | nil =>
    rw [hfired, List.isEmpty_nil, Bool.not_true, if_neg Bool.false_ne_true] at h
    cases hnext : a.next with
    | some nq =>
      rw [hnext] at h
      dsimp only at h
      rw [TurnM.run_bind, TurnM.run_savePointer] at h
      dsimp only at h
      rw [TurnM.run_lift] at h
      cases h
      exact .inr (.inl ⟨nq, rfl, rfl, rfl, rfl⟩)
    | none =>
      rw [hnext] at h
      exact .inr (.inr ⟨rfl, rfl, h⟩)

/-! ## What a decision tells about the store -/

/-- The pointer of a user stands in a section of the catalog. -/
structure Stands (f : Flow) (m : MemoryStore) (user : String) (p : Pointer) : Prop where
  /-- It is the pointer of the user. -/
  pointer : m.pointer? user = some p
  /-- The conversation is not over. -/
  isActive : p.isTerminal = false
  /-- The section may be looked up. -/
  isKey : p.sectionKey.isKey = true
  /-- The section is one of the catalog. -/
  isKnown : (f.catalog.process? p.sectionKey).isSome = true

/-- The way of an answer from the stored values to its acceptance. -/
structure Accepts (f : Flow) (m : MemoryStore) (user : String) (p : Pointer) (q : Question)
    (answer channel : Json) (a : Acceptance) (s : State) (text : String) (s' : State)
    (applied : Applied) : Prop where
  /-- The turn starts from the stored values. -/
  loaded : f.loadState ((m.scopes user).read p.sectionKey) = .ok s
  /-- The answer is a text. -/
  given : Answer.given answer = .ok text
  /-- The answer is applied. -/
  taken : f.taking s q (f.prepared q s text).answer channel = .ok (.applied s' applied)
  /-- The checks are passed. -/
  judged : f.judge p q (f.prepared q s text).extra s' applied channel = .ok (.inr a)

end Flow

/-- What has led to a decision. -/
def Decision.Grounded (f : Flow) (m : MemoryStore) (user : String) (answer channel : Json) :
    Decision → Prop
  | .closed => ∃ p, m.pointer? user = some p ∧ p.isTerminal = true
  | .begin isLost =>
    if isLost then ∃ p, m.pointer? user = some p ∧ p.isTerminal = false ∧
      f.catalog.process? p.sectionKey = none
    else m.pointer? user = none
  | .redirect p s e => f.Stands m user p ∧
    f.loadState ((m.scopes user).read p.sectionKey) = .ok s ∧
    s.nextQuestion? f.catalog (some (f.catalog.stageKeysOf p.sectionKey)) channel = .ok (some e) ∧
    e.qid.equal p.position = false
  | .depart p _ => f.Stands m user p
  | .reask p q => f.Stands m user p ∧ f.questionAt user p.position = .ok (some q)
  | .reject p stored q _ => f.Stands m user p ∧ f.questionAt user p.position = .ok (some q) ∧
    stored = (m.scopes user).read p.sectionKey
  | .collect p q c => f.Stands m user p ∧ f.questionAt user p.position = .ok (some q) ∧
    ∃ s text, f.taking s q text channel = .ok (.collected c)
  | .accept p q a => f.Stands m user p ∧ f.questionAt user p.position = .ok (some q) ∧
    ∃ s text s' applied, f.Accepts m user p q answer channel a s text s' applied

namespace Flow

/-- What the checks of an accepted answer have found. -/
structure Passed (f : Flow) (p : Pointer) (q : Question) (extra : Fields) (s : State)
    (applied : Applied) (channel : Json) (a : Acceptance) (derived : Fields)
    (pending : List PendingAttachment) (notes : Fields) : Prop where
  /-- Derived rules give the state that is checked. -/
  rules : s.applyDerived f.catalog = .ok (a.state, derived)
  /-- No check fails. -/
  noFailure : a.state.firstFailure? f.catalog = .ok none
  /-- The files that are still missing. -/
  missing : a.state.pendingAttachments f.catalog = .ok pending
  /-- The reasons to hand the conversation over. -/
  fired : a.fired = a.state.firedTriggers f.catalog
  /-- The next question of the section. -/
  next : a.state.nextQuestion? f.catalog (some (f.catalog.stageKeysOf p.sectionKey)) channel =
    .ok a.next
  /-- The bookkeeping that is written. -/
  written : bookkeeping a.state q pending a.fired a.next.isNone = .ok notes
  /-- The values that are stored. -/
  patch : a.patch = answerPatch extra derived applied notes
  /-- What the turn did. -/
  note : a.note = .applied [(applied.fieldKey, applied.value)] derived pending.length

theorem passed_of_judge {f : Flow} {p : Pointer} {q : Question} {extra : Fields} {s : State}
    {applied : Applied} {channel : Json} {a : Acceptance}
    (h : f.judge p q extra s applied channel = .ok (.inr a)) :
    ∃ derived pending notes, f.Passed p q extra s applied channel a derived pending notes := by
  obtain ⟨⟨s', derived⟩, hderived, h⟩ := Outcome.bind_eq_ok_iff.1 h
  obtain ⟨failure?, hfailure, h⟩ := Outcome.bind_eq_ok_iff.1 h
  cases failure? with
  | some failure => cases h
  | none =>
    obtain ⟨pending, hpending, h⟩ := Outcome.bind_eq_ok_iff.1 h
    obtain ⟨next, hnext, h⟩ := Outcome.bind_eq_ok_iff.1 h
    obtain ⟨notes, hnotes, h⟩ := Outcome.bind_eq_ok_iff.1 h
    cases h
    exact ⟨derived, pending, notes, hderived, hfailure, hpending, rfl, hnext, hnotes, rfl, rfl⟩

/-- The question at a position is one of the catalog. -/
theorem holds_of_questionAt {f : Flow} {user : String} {position : Json} {q : Question}
    (h : f.questionAt user position = .ok (some q)) : f.catalog.Holds q := by
  unfold questionAt at h
  split at h
  · obtain ⟨key, -, h⟩ := Outcome.bind_eq_ok_iff.1 h
    split at h
    · rename_i q' hfound
      cases h
      exact Catalog.holds_of_question? hfound
    · cases h
  · cases h

/-- What is applied is the value, under the field of the question. -/
theorem applied_of_applyValue {c : Catalog} {s s' : State} {q : Question} {v : Json}
    {applied : Applied} (h : s.applyValue c q v = .ok (s', applied)) :
    applied.fieldKey = q.fieldKey ∧ applied.value = v ∧ q.fieldKey.isKey = true := by
  obtain ⟨isKey, rfl, -⟩ := State.applyValue_spec h
  exact ⟨rfl, rfl, isKey⟩

/-- An answer that is applied and is no table was read from the text of the user. -/
theorem read_of_taking {f : Flow} {s s' : State} {q : Question} {text : String} {channel : Json}
    {applied : Applied} (simple : q.isTable = false)
    (h : f.taking s q text channel = .ok (.applied s' applied)) :
    ∃ v, s.applyValue f.catalog q v = .ok (s', applied) ∧
      Answer.read q text f.catalog.messages = .ok (.ok v) := by
  unfold taking at h
  rw [simple, if_neg Bool.false_ne_true] at h
  obtain ⟨outcome, houtcome, h⟩ := Outcome.bind_eq_ok_iff.1 h
  cases outcome with
  | error rejection => cases h
  | ok r =>
    cases h
    obtain ⟨v, hread, happly⟩ := State.applyAnswer_spec houtcome
    exact ⟨v, happly, hread⟩

/-- An answer that is applied was read from the text of the user, or collected as a table. -/
theorem applyValue_of_taking {f : Flow} {s s' : State} {q : Question} {text : String}
    {channel : Json} {applied : Applied}
    (h : f.taking s q text channel = .ok (.applied s' applied)) :
    ∃ v, s.applyValue f.catalog q v = .ok (s', applied) ∧
      (v = .arr (draftRows s q) ∨ Answer.read q text f.catalog.messages = .ok (.ok v)) := by
  cases htable : q.isTable with
  | false =>
    obtain ⟨v, happly, hread⟩ := read_of_taking htable h
    exact ⟨v, happly, .inr hread⟩
  | true =>
    unfold taking at h
    rw [htable, if_pos rfl] at h
    obtain ⟨example_, -, h⟩ := Outcome.bind_eq_ok_iff.1 h
    obtain ⟨view, -, h⟩ := Outcome.bind_eq_ok_iff.1 h
    split at h
    · split at h
      · obtain ⟨written, -, h⟩ := Outcome.bind_eq_ok_iff.1 h
        cases h
      · obtain ⟨r, hr, h⟩ := Outcome.bind_eq_ok_iff.1 h
        cases h
        exact ⟨_, hr, .inl rfl⟩
    · obtain ⟨more, -, h⟩ := Outcome.bind_eq_ok_iff.1 h
      -- rows are only collected
      cases more <;> obtain ⟨written, -, h⟩ := Outcome.bind_eq_ok_iff.1 h <;> cases h

theorem grounded_of_decideActive {f : Flow} {m : MemoryStore} {user : String} {p : Pointer}
    {answer channel : Json} {d : Decision} (stands : f.Stands m user p)
    (h : f.decideActive m user p answer channel = .ok d) : d.Grounded f m user answer channel := by
  unfold decideActive at h
  rw [MemoryStore.getFields_of_isKey stands.isKey, Outcome.ok_bind] at h
  obtain ⟨s, hs, h⟩ := Outcome.bind_eq_ok_iff.1 h
  obtain ⟨question, hquestion, h⟩ := Outcome.bind_eq_ok_iff.1 h
  obtain ⟨expected, hexpected, h⟩ := Outcome.bind_eq_ok_iff.1 h
  cases hstale : expected.filter fun e => !e.qid.equal p.position with
  | some e =>
    rw [hstale] at h
    cases h
    -- another question than the pending one is expected
    obtain ⟨rfl, hne⟩ := Option.filter_eq_some_iff.1 hstale
    exact ⟨stands, hs, hexpected, by simpa using hne⟩
  | none =>
    rw [hstale] at h
    cases question with
    | none =>
      cases h
      exact stands
    | some q =>
      -- the pending question is still expected, and the answer is looked at
      obtain ⟨text, htext, h⟩ := Outcome.bind_eq_ok_iff.1 h
      dsimp only at h
      split at h
      · cases h
        exact ⟨stands, hquestion⟩
      · obtain ⟨taken, htaken, h⟩ := Outcome.bind_eq_ok_iff.1 h
        cases taken with
        | collected c =>
          cases h
          exact ⟨stands, hquestion, s, _, htaken⟩
        | rejected r =>
          cases h
          exact ⟨stands, hquestion, rfl⟩
        | applied s' applied =>
          obtain ⟨verdict, hverdict, h⟩ := Outcome.bind_eq_ok_iff.1 h
          cases verdict with
          | inl failure =>
            cases h
            exact ⟨stands, hquestion, rfl⟩
          | inr a =>
            cases h
            exact ⟨stands, hquestion, s, text, s', applied, hs, htext, htaken, hverdict⟩

theorem grounded_of_decide {f : Flow} {m : MemoryStore} {user : String} {answer channel : Json}
    {d : Decision} (h : f.decide m user answer channel = .ok d) :
    d.Grounded f m user answer channel := by
  unfold decide at h
  change (Except.ok (m.pointer? user) >>= _ : Except Fault Decision) = _ at h
  rw [Outcome.ok_bind] at h
  cases hp : m.pointer? user with
  | none =>
    rw [hp] at h
    cases h
    exact hp
  | some p =>
    rw [hp] at h
    dsimp only at h
    split at h
    · rename_i hterminal
      cases h
      exact ⟨p, hp, hterminal⟩
    · rename_i hactive
      obtain ⟨key, hkey, h⟩ := Outcome.bind_eq_ok_iff.1 h
      obtain ⟨hisKey, rfl⟩ := (Json.asKey_eq_ok_iff _ _).1 hkey
      cases hprocess : f.catalog.process? p.sectionKey with
      | none =>
        rw [hprocess] at h
        cases h
        exact ⟨p, hp, Bool.eq_false_iff.2 hactive, hprocess⟩
      | some process =>
        rw [hprocess] at h
        exact grounded_of_decideActive
          ⟨hp, Bool.eq_false_iff.2 hactive, hisKey, by rw [hprocess]; rfl⟩ h

theorem decide_of_stands {f : Flow} {m : MemoryStore} {user : String} {p : Pointer}
    {answer channel : Json} (stands : f.Stands m user p) :
    f.decide m user answer channel = f.decideActive m user p answer channel := by
  obtain ⟨process, hprocess⟩ := Option.isSome_iff_exists.1 stands.isKnown
  unfold decide
  show (Except.ok (m.pointer? user) >>= _ : Except Fault Decision) = _
  rw [Outcome.ok_bind, stands.pointer]
  dsimp only
  rw [stands.isActive, if_neg Bool.false_ne_true,
    (Json.asKey_eq_ok_iff _ _).2 ⟨stands.isKey, rfl⟩, Outcome.ok_bind, hprocess]

end Flow

end Questionnaire
