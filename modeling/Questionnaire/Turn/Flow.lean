import Questionnaire.Answer.Preparation
import Questionnaire.Answer.Table
import Questionnaire.Routing
import Questionnaire.State.Application
import Questionnaire.State.Summary
import Questionnaire.Turn.Result
import Questionnaire.Turn.World

/-!
# Turns

One turn of a conversation: find where it stands, take the answer, store what follows from it, and
ask the next question or move on to the next section.

## Main Definitions

* `Flow` - a catalog with an optional preparer of answers
* `Flow.processTurn` - one turn
* `Flow.reset` - forget where a conversation stands

## Design Notes

The working state is built anew from the stored values in every turn.  A turn whose pointer is out
of date asks the expected question and discards the answer.
-/

namespace Questionnaire

/-- What a flow works with. -/
inductive Collaborator where
  /-- The store of collected values. -/
  | fieldStore
  /-- The store of pointers. -/
  | pointerStore
  /-- The history of completions. -/
  | history
  /-- The preparer of answers. -/
  | preparer
  deriving DecidableEq, Repr

namespace Collaborator

/-- All collaborators, in the order in which they are checked. -/
def all : List Collaborator := [.fieldStore, .pointerStore, .history, .preparer]

/-- The name of a collaborator. -/
def name : Collaborator → String
  | .fieldStore => "field_store"
  | .pointerStore => "pointer_store"
  | .history => "history"
  | .preparer => "preprocessor"

/-- The operations that a collaborator has to offer. -/
def operations : Collaborator → List String
  | .fieldStore => ["get_fields", "set_fields"]
  | .pointerStore => ["get_pointer", "save_pointer", "delete_pointer"]
  | .history => ["append_completion"]
  | .preparer => ["preprocess"]

/-- Every collaborator that is no `impostor` offers its operations; the first one that lacks an
operation is reported. -/
def check (impostors : List Collaborator) : Except Fault Unit :=
  match all.find? impostors.contains with
  | none => .ok ()
  | some c => .error (.missingOperation c.name (c.operations.headD ""))

end Collaborator

/-- A catalog with an optional preparer of answers. -/
structure Flow where
  /-- The catalog. -/
  catalog : Catalog
  /-- What prepares answers. -/
  preparer : Option Preparer

namespace Flow

/-- A flow over a catalog, if its collaborators offer what they have to. -/
def create (catalog : Catalog) (preparer : Option Preparer) (impostors : List Collaborator) :
    Except Fault Flow := do
  Collaborator.check impostors
  catalog.usable
  pure ⟨catalog, preparer⟩

/-- The filled ones of some texts, a blank line between them. -/
def joinParts (parts : List Json) : Except Fault String := do
  let texts ← Answer.textsOf (parts.filter Json.isFilled)
  pure (String.intercalate "\n\n" texts)

/-- The filled ones of some texts without the blanks around them, a blank line between them. -/
def joinTrimmed (parts : List Json) : Except Fault String := do
  let texts ← (parts.filter Json.isFilled).mapM State.trimmedPattern
  pure (String.intercalate "\n\n" (texts.filter (· ≠ "")))

/-- The stored form document, if there is one. -/
def storedDocument (fields : Fields) : Option Json :=
  match Json.decoded .null ((Assoc.valueAt? Bookkeeping.document fields).getD .null) with
  | .obj ms => some (.obj ms)
  | _ => none

/-- The working state of stored values. -/
def loadState (f : Flow) (fields : Fields) : Except Fault State :=
  State.ofFields f.catalog fields (storedDocument fields)

/-- The text before a question: when the stage changes, the checkpoint of the stage that is left and
the introduction of the stage that is entered. -/
def composeIntro (f : Flow) (s : State) (previous next channel : Json) (lead : String) :
    Except Fault String :=
  if next.equal previous then joinTrimmed [.str lead]
  else do
    let left ←
      if previous.isFilled then State.checkpointText? f.catalog s previous else pure none
    let key ← next.asKey
    let entered :=
      match f.catalog.stage? key with
      | some stage => stage.introFor channel
      | none => .str ""
    joinTrimmed [.str lead, .str (left.getD ""), entered]

/-- The parts of a prompt besides its question. -/
structure PromptParts where
  /-- The text before the question. -/
  intro : String := ""
  /-- Why the question is asked again. -/
  error : Option TurnError := none
  /-- The pointer was out of date. -/
  isStale : Bool := false
  /-- The text in the place of the question. -/
  text : String := ""
  /-- What the turn did. -/
  note : TurnNote := .nothing

/-- The result of asking a question. -/
def prompt (q : NextQuestion) (section_ : Json) (transitions : List FlowStatus)
    (parts : PromptParts) : Except Fault TurnResult := do
  let body := (Json.str parts.text).filledOr q.prompt
  let problem := (parts.error.map TurnError.message).getD (.str "")
  let output ← joinParts [problem, .str parts.intro, body]
  pure { kind := .prompt, output := output, question := some q, sectionKey := section_,
         intro := parts.intro, error := parts.error, isStale := parts.isStale,
         transitions := transitions, note := parts.note }

/-- The result of asking for nothing any more. -/
def terminal (f : Flow) (transitions : List FlowStatus) (lead : String) (note : TurnNote) :
    Except Fault TurnResult := do
  let closing ← Message.terminal.render f.catalog.messages []
  let output ← joinParts [.str lead, .str closing]
  pure { kind := .terminal, output := output, intro := lead, transitions := transitions,
         note := note }

/-- The result of handing the conversation over. -/
def handoff (f : Flow) (section_ : Json) (fired : List FiredHandoff)
    (transitions : List FlowStatus) (note : TurnNote) : Except Fault TurnResult := do
  let output ← Message.handoff.render f.catalog.messages []
  pure { kind := .handoff, output := output, sectionKey := section_,
         handoffReasons := fired.map (·.reason), handoffActions := fired.map (·.action),
         transitions := transitions, note := note }

variable {σ : Type} [Store σ]

open TurnM (lift)

/-- Record that a section was completed; gives all completed sections. -/
def recordCompletion (user : String) (section_ sessionId position : Json) :
    TurnM σ (List Json) := do
  let fields ← TurnM.getFields user Bookkeeping.flowScope
  let done := Routing.complete (Routing.completed fields) section_
  TurnM.setFields user Bookkeeping.flowScope [(Bookkeeping.completed, .arr done)]
  let _ ← TurnM.appendCompletion user section_ sessionId
    (position.filledOr (.str CompletionRecord.mainPosition))
  pure done

/-- Ask a question of a section that is entered. -/
def openSection (f : Flow) (user : String) (s : State) (section_ : Json) (sessionId : String)
    (stageKey : Json) (q : Except Fault NextQuestion) (qid : Json) (channel : Json)
    (transitions : List FlowStatus) (lead : String) (note : TurnNote) : TurnM σ TurnResult := do
  TurnM.savePointer user ⟨section_, qid, stageKey, .active, .str sessionId⟩
  let intro ← lift (f.composeIntro s (.str "") stageKey channel lead)
  let q ← lift q
  lift (prompt q section_ (transitions ++ [.active]) { intro := intro, note := note })

/-- End the conversation. -/
def finish (f : Flow) (user : String) (transitions : List FlowStatus) (lead : String)
    (note : TurnNote) : TurnM σ TurnResult := do
  let sessionId ← TurnM.freshSession
  TurnM.savePointer user
    { sectionKey := .null, status := .terminal, sessionId := .str sessionId }
  lift (f.terminal (transitions ++ [.terminal]) lead note)

/-- Enter a section and ask its first question.  A section with nothing to ask is completed on the
spot and routing goes on, `left` times at most; `attempts` sections were entered before. -/
def enter (f : Flow) (user : String) (channel : Json) (lead : String) (note : TurnNote) :
    Nat → Nat → Option Json → List FlowStatus → TurnM σ TurnResult
  | _, _, none, transitions => f.finish user transitions lead note
  | left, attempts, some section_, transitions => do
    let fields ← TurnM.getFields user Bookkeeping.flowScope
    match left, f.catalog.process? section_ with
    | left + 1, some process =>
      if (Routing.completed fields).contains section_ then
        throw (.noEligibleTarget user section_ (attempts + 1))
      let sessionId ← TurnM.freshSession
      let stored ← TurnM.getFields user section_
      let s ← lift (f.loadState stored)
      match ← lift (s.nextQuestion? f.catalog (some process.stageKeys) channel) with
      | some q =>
        f.openSection user s section_ sessionId q.stageKey (.ok q) q.qid channel transitions lead
          note
      | none =>
        if ← lift (s.isComplete f.catalog process.stageKeys process.askIf) then
          let done ← recordCompletion user section_ (.str sessionId)
            (.str CompletionRecord.mainPosition)
          let fields ← TurnM.getFields user Bookkeeping.flowScope
          enter f user channel lead note left (attempts + 1)
            (Routing.nextAfter f.catalog section_ done fields)
            (transitions ++ [.sectionComplete, .routed])
        else
          match ← lift (s.missingQuestions f.catalog process.stageKeys) with
          | [] => throw .noItem
          | q :: _ =>
            f.openSection user s section_ sessionId q.stageKey (f.catalog.view q channel) q.qid
              channel transitions lead note
    | _, _ => throw (.noEligibleTarget user section_ (attempts + 1))

/-- The number of sections that may be entered in one turn. -/
def maxHops (f : Flow) : Nat := f.catalog.processOrder.length + 1

/-- Start or resume a conversation that stands nowhere. -/
def start (f : Flow) (user : String) (channel : Json) : TurnM σ TurnResult := do
  let fields ← TurnM.getFields user Bookkeeping.flowScope
  let done := Routing.completed fields
  f.enter user channel "" .nothing f.maxHops 0 (Routing.next f.catalog done fields) [.routed]

/-- Leave a section: if a required answer is missing, ask for it; otherwise complete the section and
route onward. -/
def leave (f : Flow) (user : String) (p : Pointer) (s : State) (transitions : List FlowStatus)
    (channel : Json) (note : TurnNote) : TurnM σ TurnResult := do
  let stageKeys := f.catalog.stageKeysOf p.sectionKey
  let askIf := ((f.catalog.process? p.sectionKey).map (·.askIf)).getD (.str "")
  if ← lift (s.isComplete f.catalog stageKeys askIf) then
    let done ← recordCompletion user p.sectionKey p.sessionId p.stageKey
    let fields ← TurnM.getFields user Bookkeeping.flowScope
    let decision := Routing.nextAfter f.catalog p.sectionKey done fields
    let lead ←
      if p.stageKey.isFilled then lift (s.checkpointText? f.catalog p.stageKey) else pure none
    f.enter user channel (lead.getD "") note f.maxHops 0 decision
      (transitions ++ [.sectionComplete, .routed])
  else
    match ← lift (s.missingQuestions f.catalog stageKeys) with
    | [] => throw .noItem
    | q :: _ =>
      TurnM.savePointer user (p.advance q.qid q.stageKey)
      let view ← lift (f.catalog.view q channel)
      lift (prompt view p.sectionKey transitions { note := note })

/-- Empty the extracted answer, so that a rejected turn does not look answered. -/
def clearTransient (user : String) (section_ : Json) (fields : Fields) : TurnM σ Unit := do
  if ((Assoc.valueAt? Bookkeeping.transient fields).getD .null).isFilled then
    TurnM.setFields user section_ [(Bookkeeping.transient, .str "")]

/-- Keep the rows of a table that is being collected. -/
def saveDraft (user : String) (section_ qid : Json) (rows : List Json) : TurnM σ Unit := do
  let written ← lift (Json.arr rows).dump
  TurnM.setFields user section_
    [(Bookkeeping.draftQuestion, qid), (Bookkeeping.draftRows, .str written)]

/-- The rows of a table that were collected so far. -/
def draftRows (s : State) (q : Question) : List Json :=
  let qid := Text.trim ((s.valueOf Bookkeeping.draftQuestion).filledOr (.str "")).display
  match Json.decoded (.arr []) (s.valueOf Bookkeeping.draftRows) with
  | .arr rows => if (Json.str qid).equal q.qid then rows else []
  | _ => []

/-- Take an answer to a question about a table: rows are added to the draft, and a closing word
turns the draft into the value. -/
def takeRows (f : Flow) (user : String) (section_ : Json) (s : State) (q : Question)
    (answer : String) (transitions : List FlowStatus) (channel : Json) :
    TurnM σ (TurnResult ⊕ State × Applied) := do
  let rows := draftRows s q
  let example_ ← lift (Answer.exampleRow q.tableColumns)
  let view ← lift (f.catalog.view q channel)
  if Answer.closesTable answer then
    if rows.isEmpty then
      saveDraft user section_ q.qid rows
      let text ← lift
        (Message.tableStart.render f.catalog.messages [("example", .str example_)])
      let r ← lift (prompt view section_ transitions { text := text })
      pure (.inl r)
    else
      let r ← lift (s.applyValue f.catalog q (.arr rows))
      pure (.inr r)
  else
    match ← lift (Answer.readRows? answer q.tableColumns) with
    | none =>
      saveDraft user section_ q.qid rows
      let text ← lift
        (Message.tableRetry.render f.catalog.messages [("example", .str example_)])
      let r ← lift (prompt view section_ transitions { text := text })
      pure (.inl r)
    | some more =>
      let all := rows ++ more.map fun row => .obj (Fields.toObject row)
      saveDraft user section_ q.qid all
      let text ← lift (Message.tableMore.render f.catalog.messages [])
      let r ← lift (prompt view section_ transitions
        { text := text, note := .tableRows all.length })
      pure (.inl r)

/-- Take an answer to a question: either it leads to asking again, or it gives a new state. -/
def takeAnswer (f : Flow) (user : String) (section_ : Json) (stored : Fields) (s : State)
    (q : Question) (answer : String) (transitions : List FlowStatus) (channel : Json) :
    TurnM σ (TurnResult ⊕ State × Applied) := do
  if q.isTable then f.takeRows user section_ s q answer transitions channel
  else
    match ← lift (s.applyAnswer f.catalog q answer) with
    | .ok r => pure (.inr r)
    | .error rejection =>
      clearTransient user section_ stored
      let view ← lift (f.catalog.view q channel)
      let r ← lift (prompt view section_ transitions { error := some (.rejection rejection) })
      pure (.inl r)

/-- The reasons of triggers in one text. -/
def reasonText (fired : List FiredHandoff) : Except Fault String := do
  let texts ← Answer.textsOf ((fired.map (·.reason)).filter Json.isFilled)
  pure (String.intercalate " | " texts)

/-- The bookkeeping that is written with an answer. -/
def bookkeeping (s : State) (q : Question) (pending : List PendingAttachment)
    (fired : List FiredHandoff) (isLast : Bool) : Except Fault Fields := do
  let document ← s.document.dump
  let attachments ← (Json.arr (pending.map PendingAttachment.toJson)).dump
  let reasons ← reasonText fired
  pure ([(Bookkeeping.document, .str document),
    (Bookkeeping.transient, .str ""),
    (Bookkeeping.attachments, .str attachments),
    (Bookkeeping.attachmentCount, .int pending.length),
    (Bookkeeping.handoffRequired, .bool !fired.isEmpty),
    (Bookkeeping.handoffReasons, .str reasons),
    (Bookkeeping.complete, .bool (isLast || !fired.isEmpty))]
    ++ if q.isTable then
      [(Bookkeeping.draftQuestion, .str ""), (Bookkeeping.draftRows, .str "")]
    else [])

/-- The patch of an answer: further values, then derived ones, then the answer, then the
bookkeeping; of two values of one field the later one is written. -/
def answerPatch (extra derived : Fields) (applied : Applied) (notes : Fields) : Fields :=
  Assoc.overlay (Assoc.overlay (Assoc.overlay [] extra) derived)
    ((applied.fieldKey, applied.value) :: notes)

/-- Store what follows from an answer that was taken, and go on. -/
def settle (f : Flow) (user : String) (p : Pointer) (stored : Fields) (q : Question)
    (extra : Fields) (s : State) (applied : Applied) (transitions : List FlowStatus)
    (channel : Json) : TurnM σ TurnResult := do
  let section_ := p.sectionKey
  let stageKeys := f.catalog.stageKeysOf section_
  let (s, derived) ← lift (s.applyDerived f.catalog)
  match ← lift (s.firstFailure? f.catalog) with
  | some failure =>
    clearTransient user section_ stored
    let view ← lift (f.catalog.view q channel)
    lift (prompt view section_ transitions { error := some (.failure failure) })
  | none =>
    let pending ← lift (s.pendingAttachments f.catalog)
    let fired := s.firedTriggers f.catalog
    let next ← lift (s.nextQuestion? f.catalog (some stageKeys) channel)
    let notes ← lift (bookkeeping s q pending fired next.isNone)
    TurnM.setFields user section_ (answerPatch extra derived applied notes)
    let note : TurnNote := .applied [(applied.fieldKey, applied.value)] derived pending.length
    if !fired.isEmpty then
      let _ ← recordCompletion user section_ p.sessionId p.stageKey
      TurnM.deletePointer user
      lift (f.handoff section_ fired (transitions ++ [.sectionComplete]) note)
    else
      match next with
      | some nq =>
        TurnM.savePointer user (p.advance nq.qid nq.stageKey)
        let intro ← lift (f.composeIntro s p.stageKey nq.stageKey channel "")
        lift (prompt nq section_ transitions { intro := intro, note := note })
      | none => f.leave user p s transitions channel note

/-- The question at a position, none if nothing is pending. -/
def questionAt (f : Flow) (user : String) (position : Json) : Except Fault (Option Question) :=
  if position.isFilled then do
    let key ← position.asKey
    match f.catalog.question? key with
    | some q => pure (some q)
    | none => .error (.unknownQuestion position user)
  else .ok none

/-- A turn of a conversation that stands in a section. -/
def processActive (f : Flow) (user : String) (p : Pointer) (answer channel : Json) :
    TurnM σ TurnResult := do
  let section_ := p.sectionKey
  let stored ← TurnM.getFields user section_
  let s ← lift (f.loadState stored)
  let question ← lift (f.questionAt user p.position)
  let expected ← lift
    (s.nextQuestion? f.catalog (some (f.catalog.stageKeysOf section_)) channel)
  match expected.filter fun e => !e.qid.equal p.position with
  | some e =>
    TurnM.savePointer user (p.advance e.qid e.stageKey)
    let intro ← lift (f.composeIntro s p.stageKey e.stageKey channel "")
    lift (prompt e section_ [.active] { intro := intro, isStale := true })
  | none =>
    match question with
    | none => f.leave user p s [.active] channel .nothing
    | some q =>
      let answer ← lift (Answer.given answer)
      let prepared : Prepared :=
        match f.preparer with
        | some prepare => prepare answer (some q) s.values
        | none => { answer := answer }
      if prepared.reask then
        let view ← lift (f.catalog.view q channel)
        lift (prompt view section_ [.active] {})
      else
        match ← f.takeAnswer user section_ stored s q prepared.answer [.active] channel with
        | .inl r => pure r
        | .inr (s, applied) =>
          f.settle user p stored q prepared.extra s applied [.active] channel

/-- One turn of a conversation.  The first turn opens a section and does not look at the answer; a
pointer into an unknown section is forgotten. -/
def processTurn (f : Flow) (user : String) (answer channel : Json) : TurnM σ TurnResult := do
  match ← TurnM.getPointer user with
  | none => f.start user channel
  | some p =>
    if p.isTerminal then lift (f.terminal [.terminal] "" .nothing)
    else
      let key ← lift p.sectionKey.asKey
      match f.catalog.process? key with
      | none =>
        TurnM.deletePointer user
        f.start user channel
      | some _ => f.processActive user p answer channel

/-- Forget where a conversation stands; the collected values are kept. -/
def reset (user : String) : TurnM σ Unit := TurnM.deletePointer user

end Flow

end Questionnaire
