import Questionnaire.Proofs.Turn.Conversation
import Questionnaire.Proofs.Turn.Wording

/-!
# A turn on two channels

The channel is handed through all of a turn, to where a question is selected, asked again or asked
first in a section that is entered.  All that comes of it is wording.  What is shown here for two
channels is shown for any coupling of worlds, so it also tells what a turn does in two worlds on one
channel.

## Main Statements

* `Flow.ties_hop`, `Flow.ties_enter` - entering one section, and one after the other
* `Flow.ties_processTurn` - a turn in coupled worlds on two channels
* `Flow.unworded_processTurn` - on another channel a turn fails for the same reason or gives the
  same result in other words, and it leaves the same behind
-/

namespace Questionnaire

open Coupling
open Outcome (Agree)

namespace Flow

variable {σ : Type} [Store σ] {user : String} {C : Coupling σ user} {f : Flow}
  {channel channel' : Json}

/-! ## Sections -/

theorem ties_recordCompletion (section_ position : Json) {id id' : Json} (h : C.ids id id') :
    C.Ties Eq (recordCompletion user section_ id position)
      (recordCompletion user section_ id' position) := by
  unfold recordCompletion
  refine (ties_getFields _).bind_eq fun fields => (ties_setFields _ _).bind_eq fun _ => ?_
  exact (ties_appendCompletion section_ _ h).bind fun _ _ _ => ties_pure rfl

theorem ties_finish (transitions : List FlowStatus) (lead : String) (note : TurnNote) :
    C.Ties (TurnResult.Rephrased (channel ≠ channel')) (f.finish user transitions lead note)
      (f.finish user transitions lead note) := by
  refine ties_freshSession.bind fun id id' hids => ?_
  refine (ties_savePointer (.intro { sectionKey := .null, status := .terminal } hids)).bind_eq
    fun _ => ties_lift (.refl .refl _)

variable (speaks : channel ≠ channel' → f.catalog.SpeaksText)
include speaks

/-- A question of the catalog is asked again. -/
theorem ties_ask {q : Question} (held : f.catalog.Holds q) (section_ : Json)
    (transitions : List FlowStatus) (parts : PromptParts) :
    C.Ties (TurnResult.Rephrased (channel ≠ channel'))
      (do
        let view ← TurnM.lift (f.catalog.view q channel)
        TurnM.lift (prompt view section_ transitions parts))
      (do
        let view ← TurnM.lift (f.catalog.view q channel')
        TurnM.lift (prompt view section_ transitions parts)) := by
  refine (ties_lift (Catalog.rephrased_view speaks held)).bind fun view view' hview => ?_
  exact ties_lift (rephrased_prompt hview section_ transitions parts (.inl rfl))

/-- The conversation moves on to a question that was selected. -/
theorem ties_moveTo {p p' : Pointer} (hp : p.Matches C.ids p') (s : State) {q q' : NextQuestion}
    (hq : NextQuestion.Rephrased (channel ≠ channel') q q') (transitions : List FlowStatus)
    (parts : PromptParts) :
    C.Ties (TurnResult.Rephrased (channel ≠ channel'))
      (do
        TurnM.savePointer user (p.advance q.qid q.stageKey)
        let intro ← TurnM.lift (f.composeIntro s p.stageKey q.stageKey channel "")
        TurnM.lift (prompt q p.sectionKey transitions { parts with intro := intro }))
      (do
        TurnM.savePointer user (p'.advance q'.qid q'.stageKey)
        let intro ← TurnM.lift (f.composeIntro s p'.stageKey q'.stageKey channel' "")
        TurnM.lift (prompt q' p'.sectionKey transitions { parts with intro := intro })) := by
  cases hq with
  | intro q htext =>
    refine (ties_savePointer (hp.advance q.qid q.stageKey)).bind_eq fun _ => ?_
    cases hp with
    | intro p hids =>
      refine (ties_lift (rephrased_composeIntro speaks s p.stageKey q.stageKey "")).bind
        fun intro intro' hintro => ?_
      exact ties_lift (rephrased_prompt (.intro q htext) p.sectionKey transitions parts hintro)

theorem ties_openSection {s : State} {section_ stageKey qid : Json} {id id' : String}
    (h : C.ids (.str id) (.str id')) {q q' : Except Fault NextQuestion}
    (hq : Agree (NextQuestion.Rephrased (channel ≠ channel')) q q')
    (transitions : List FlowStatus) (lead : String) (note : TurnNote) :
    C.Ties (TurnResult.Rephrased (channel ≠ channel'))
      (f.openSection user s section_ id stageKey q qid channel transitions lead note)
      (f.openSection user s section_ id' stageKey q' qid channel' transitions lead note) := by
  refine (ties_savePointer (.intro ⟨section_, qid, stageKey, .active, .null⟩ h)).bind_eq fun _ => ?_
  refine (ties_lift (rephrased_composeIntro speaks s _ stageKey lead)).bind
    fun intro intro' hintro => ?_
  refine (ties_lift hq).bind fun q q' hq => ties_lift ?_
  exact rephrased_prompt hq section_ _ { note := note } hintro

/-- One more section may be entered: if what follows is tied, entering it is. -/
theorem ties_hop {lead : String} {note : TurnNote} {left : Nat}
    (follows : ∀ attempts target transitions, C.Ties (TurnResult.Rephrased (channel ≠ channel'))
      (f.enter user channel lead note left attempts target transitions)
      (f.enter user channel' lead note left attempts target transitions))
    (attempts : Nat) (section_ : Json) (transitions : List FlowStatus) :
    C.Ties (TurnResult.Rephrased (channel ≠ channel'))
      (f.enter user channel lead note (left + 1) attempts (some section_) transitions)
      (f.enter user channel' lead note (left + 1) attempts (some section_) transitions) := by
  unfold enter
  refine (ties_getFields _).bind_eq fun fields => ?_
  cases f.catalog.process? section_ with
  | none => exact ties_throw _
  | some process =>
    dsimp only
    split
    · exact ties_throw _
    · refine ties_freshSession.bind fun id id' hids => ?_
      refine (ties_getFields _).bind_eq fun stored => ties_lift_bind fun s _ => ?_
      refine (ties_lift (State.rephrased_nextQuestion? speaks _)).bind fun q? q?' hq => ?_
      cases hq with
      | some hq =>
        cases hq with
        | intro q htext => exact ties_openSection speaks hids (.ok (.intro q htext)) _ lead note
      | none =>
        refine ties_lift_bind fun complete _ => ?_
        cases complete with
        | true =>
          -- nothing is left to ask on either channel, and the next section is the same
          refine (ties_recordCompletion section_ _ hids).bind_eq fun done => ?_
          exact (ties_getFields _).bind_eq fun fields => follows _ _ _
        | false =>
          refine ties_lift_bind fun missing hmissing => ?_
          cases missing with
          | nil => exact ties_throw _
          | cons q rest =>
            have held := State.mem_missingQuestions hmissing List.mem_cons_self
            exact ties_openSection speaks hids (Catalog.rephrased_view speaks held) _ lead note

/-- Entering sections, by induction on the number that may still be entered. -/
theorem ties_enter (lead : String) (note : TurnNote) (left attempts : Nat) (target : Option Json)
    (transitions : List FlowStatus) :
    C.Ties (TurnResult.Rephrased (channel ≠ channel'))
      (f.enter user channel lead note left attempts target transitions)
      (f.enter user channel' lead note left attempts target transitions) := by
  induction left generalizing attempts target transitions with
  | zero =>
    cases target with
    | none => exact ties_finish transitions lead note
    | some section_ =>
      unfold enter
      exact (ties_getFields _).bind_eq fun fields => ties_throw _
  | succ left ih =>
    cases target with
    | none => exact ties_finish transitions lead note
    | some section_ => exact ties_hop speaks ih attempts section_ transitions

theorem ties_start : C.Ties (TurnResult.Rephrased (channel ≠ channel')) (f.start user channel)
    (f.start user channel') := by
  unfold start
  exact (ties_getFields _).bind_eq fun fields => ties_enter speaks _ _ _ _ _ _

theorem ties_leave {p p' : Pointer} (hp : p.Matches C.ids p') (s : State)
    (transitions : List FlowStatus) (note : TurnNote) :
    C.Ties (TurnResult.Rephrased (channel ≠ channel'))
      (f.leave user p s transitions channel note)
      (f.leave user p' s transitions channel' note) := by
  cases hp with
  | intro p hids =>
    unfold leave
    refine ties_lift_bind fun complete _ => ?_
    cases complete with
    | true =>
      refine (ties_recordCompletion p.sectionKey _ hids).bind_eq fun done => ?_
      refine (ties_getFields _).bind_eq fun fields => ?_
      dsimp only
      split
      · exact ties_lift_bind fun lead _ => ties_enter speaks _ _ _ _ _ _
      · exact ties_enter speaks _ _ _ _ _ _
    | false =>
      refine ties_lift_bind fun missing hmissing => ?_
      cases missing with
      | nil => exact ties_throw _
      | cons q rest =>
        have held := State.mem_missingQuestions hmissing List.mem_cons_self
        refine (ties_savePointer ((Pointer.Matches.intro p hids).advance _ _)).bind_eq fun _ => ?_
        exact ties_ask speaks held p.sectionKey transitions { note := note }

/-! ## Answers -/

omit speaks

theorem ties_clearTransient (section_ : Json) (fields : Fields) :
    C.Ties Eq (clearTransient user section_ fields) (clearTransient user section_ fields) := by
  unfold clearTransient
  split
  · exact ties_setFields _ _
  · exact ties_pure rfl

theorem ties_saveDraft (section_ qid : Json) (rows : List Json) :
    C.Ties Eq (saveDraft user section_ qid rows) (saveDraft user section_ qid rows) :=
  ties_lift_bind fun _ _ => ties_setFields _ _

include speaks

/-- An answer about a table leads to asking again on both channels, or gives the same state. -/
theorem ties_takeRows {q : Question} (held : f.catalog.Holds q) (section_ : Json) (s : State)
    (answer : String) (transitions : List FlowStatus) :
    C.Ties (Sum.LiftRel (TurnResult.Rephrased (channel ≠ channel')) Eq)
      (f.takeRows user section_ s q answer transitions channel)
      (f.takeRows user section_ s q answer transitions channel') := by
  unfold takeRows
  refine ties_lift_bind fun example_ _ => ?_
  refine (ties_lift (Catalog.rephrased_view speaks held)).bind fun view view' hview => ?_
  -- every way on but one keeps a draft and asks again
  have again (rows : List Json) (message : Message) (values : Object) (note : TurnNote) :
      C.Ties (β := TurnResult ⊕ State × Applied)
        (Sum.LiftRel (TurnResult.Rephrased (channel ≠ channel')) Eq)
        (do
          saveDraft user section_ q.qid rows
          let text ← TurnM.lift (message.render f.catalog.messages values)
          let r ← TurnM.lift (prompt view section_ transitions { text := text, note := note })
          pure (.inl r))
        (do
          saveDraft user section_ q.qid rows
          let text ← TurnM.lift (message.render f.catalog.messages values)
          let r ← TurnM.lift (prompt view' section_ transitions { text := text, note := note })
          pure (.inl r)) := by
    refine (ties_saveDraft section_ q.qid rows).bind_eq fun _ => ties_lift_bind fun text _ => ?_
    refine (ties_lift (rephrased_prompt hview section_ transitions
      { text := text, note := note } (.inl rfl))).bind fun r r' hr => ?_
    exact ties_pure (.inl hr)
  split
  · split
    · exact again _ _ _ _
    · exact ties_lift_bind fun r _ => ties_pure (.inr rfl)
  · refine ties_lift_bind fun more _ => ?_
    cases more with
    | none => exact again _ _ _ _
    | some more => exact again _ _ _ _

theorem ties_takeAnswer {q : Question} (held : f.catalog.Holds q) (section_ : Json)
    (stored : Fields) (s : State) (answer : String) (transitions : List FlowStatus) :
    C.Ties (Sum.LiftRel (TurnResult.Rephrased (channel ≠ channel')) Eq)
      (f.takeAnswer user section_ stored s q answer transitions channel)
      (f.takeAnswer user section_ stored s q answer transitions channel') := by
  unfold takeAnswer
  split
  · exact ties_takeRows speaks held section_ s answer transitions
  · refine ties_lift_bind fun outcome _ => ?_
    cases outcome with
    | ok r => exact ties_pure (.inr rfl)
    | error rejection =>
      refine (ties_clearTransient section_ stored).bind_eq fun _ => ?_
      refine (ties_lift (Catalog.rephrased_view speaks held)).bind fun view view' hview => ?_
      refine (ties_lift (rephrased_prompt hview section_ transitions
        { error := some (.rejection rejection) } (.inl rfl))).bind fun r r' hr => ?_
      exact ties_pure (.inl hr)

theorem ties_settle {p p' : Pointer} (hp : p.Matches C.ids p') {q : Question}
    (held : f.catalog.Holds q) (stored extra : Fields) (s : State) (applied : Applied)
    (transitions : List FlowStatus) :
    C.Ties (TurnResult.Rephrased (channel ≠ channel'))
      (f.settle user p stored q extra s applied transitions channel)
      (f.settle user p' stored q extra s applied transitions channel') := by
  cases hp with
  | intro p hids =>
    unfold settle
    refine ties_lift_bind fun derived _ => ties_lift_bind fun failure? _ => ?_
    cases failure? with
    | some failure =>
      refine (ties_clearTransient p.sectionKey stored).bind_eq fun _ => ?_
      exact ties_ask speaks held p.sectionKey transitions { error := some (.failure failure) }
    | none =>
      refine ties_lift_bind fun pending _ => ?_
      refine (ties_lift (State.rephrased_nextQuestion? speaks _)).bind fun next next' hnext => ?_
      have hlast : next.isNone = next'.isNone := by cases hnext <;> rfl
      rw [hlast]
      refine ties_lift_bind fun notes _ => (ties_setFields _ _).bind_eq fun _ => ?_
      dsimp only
      split
      · refine (ties_recordCompletion p.sectionKey _ hids).bind_eq fun done => ?_
        exact ties_deletePointer.bind_eq fun _ => ties_lift (.refl .refl _)
      · cases hnext with
        | none => exact ties_leave speaks (.intro p hids) _ transitions _
        | some hq => exact ties_moveTo speaks (.intro p hids) _ hq transitions { note := _ }

/-! ## Turns -/

theorem ties_processActive {p p' : Pointer} (hp : p.Matches C.ids p') (answer : Json) :
    C.Ties (TurnResult.Rephrased (channel ≠ channel'))
      (f.processActive user p answer channel) (f.processActive user p' answer channel') := by
  cases hp with
  | intro p hids =>
    unfold processActive
    refine (ties_getFields p.sectionKey).bind_eq fun stored => ties_lift_bind fun s _ => ?_
    refine ties_lift_bind fun question hquestion => ?_
    refine (ties_lift (State.rephrased_nextQuestion? speaks _)).bind fun next next' hnext => ?_
    -- the expected question is another one on both channels or on neither
    have hexpected := NextQuestion.rephrased_filter hnext p.position
    dsimp only
    generalize (next.filter fun e => !e.qid.equal p.position) = e? at hexpected ⊢
    generalize (next'.filter fun e => !e.qid.equal p.position) = e?' at hexpected ⊢
    cases hexpected with
    | some hq => exact ties_moveTo speaks (.intro p hids) s hq _ { isStale := true }
    | none =>
      cases question with
      | none => exact ties_leave speaks (.intro p hids) s _ _
      | some q =>
        have held := holds_of_questionAt hquestion
        refine ties_lift_bind fun given _ => ?_
        change C.Ties _ (if (f.prepared q s given).reask then _ else _)
          (if (f.prepared q s given).reask then _ else _)
        split
        · exact ties_ask speaks held p.sectionKey _ {}
        · refine (ties_takeAnswer speaks held _ _ _ _ _).bind fun taken taken' htaken => ?_
          cases htaken with
          | inl hr => exact ties_pure hr
          | inr h =>
            cases h
            exact ties_settle speaks (.intro p hids) held _ _ _ _ _

/-- A turn in coupled worlds on two channels. -/
theorem ties_processTurn (answer : Json) :
    C.Ties (TurnResult.Rephrased (channel ≠ channel')) (f.processTurn user answer channel)
      (f.processTurn user answer channel') := by
  unfold processTurn
  refine ties_getPointer.bind fun p? p?' hp => ?_
  cases hp with
  | none => exact ties_start speaks
  | some hp =>
    dsimp only
    rw [hp.isTerminal]
    split
    · exact ties_lift (.refl .refl _)
    · cases hp with
      | intro p hids =>
        refine ties_lift_bind fun key _ => ?_
        cases f.catalog.process? key with
        | none => exact ties_deletePointer.bind_eq fun _ => ties_start speaks
        | some _ => exact ties_processActive speaks (.intro p hids) answer

omit speaks

/-- On another channel a turn fails for the same reason or gives the same result in other words, and
it leaves the same world behind. -/
theorem unworded_processTurn (speaks : f.catalog.SpeaksText) (user : String)
    (answer channel channel' : Json) (w : World σ) :
    ((f.processTurn user answer channel).run w).1.map TurnResult.unworded =
        ((f.processTurn user answer channel').run w).1.map TurnResult.unworded ∧
      ((f.processTurn user answer channel).run w).2 =
        ((f.processTurn user answer channel').run w).2 := by
  have ties : (Coupling.same σ user).Ties (TurnResult.Rephrased (channel ≠ channel'))
      (f.processTurn user answer channel) (f.processTurn user answer channel') :=
    ties_processTurn (fun _ => speaks) answer
  obtain ⟨hagree, hworlds⟩ := ties w w rfl
  exact ⟨hagree.map_eq fun _ _ hr => hr.unworded, hworlds⟩

/-- A catalog with one question, which has a wording and an introduction for a channel. -/
def spokenGreeting : Json :=
  .obj [
    ("questions", .arr [.obj [("qid", .str "Q1"), ("field_key", .str "name"),
      ("prompt", .str "Name?"),
      ("prompt_variants", .obj [("voice", .str "What is your name?")])]]),
    ("stages", .arr [.obj [("stage_key", .str "s"), ("question_ids", .arr [.str "Q1"]),
      ("intro", .str "Hello."), ("intro_variants", .obj [("voice", .str "Good morning.")])]]),
    ("processes", .arr [.obj [("process_key", .str "01"), ("stage_keys", .arr [.str "s"])]])]

/-- Two channels hear different texts, and the same question. -/
theorem unworded_processTurn_spoken : ∃ (f : Flow) (r r' : TurnResult)
    (w' : World MemoryStore), f.catalog.Accepted ∧ f.catalog.SpeaksText ∧
    (f.processTurn "u1" .null .null).run untouchedWorld = (.ok r, w') ∧
    (f.processTurn "u1" .null (.str "voice")).run untouchedWorld = (.ok r', w') ∧
      r.output ≠ r'.output ∧ r.unworded = r'.unworded := by
  have evaluated : Outcome.Gives (Catalog.ofJson spokenGreeting "catalog.json") fun e =>
      e.1.SpeaksText ∧
        Outcome.Gives (((Flow.mk e.1 none).processTurn "u1" .null .null).run untouchedWorld).1
          fun r => Outcome.Gives
            (((Flow.mk e.1 none).processTurn "u1" .null (.str "voice")).run untouchedWorld).1
            fun r' => r.output ≠ r'.output := by
    decide +kernel
  obtain ⟨⟨c, warnings⟩, hc, speaks, r, hrun, r', hrun', hdiffer⟩ := evaluated
  have accepted : c.Accepted := ⟨spokenGreeting, "catalog.json", warnings, hc⟩
  obtain ⟨hsame, hworlds⟩ := unworded_processTurn (f := ⟨c, none⟩) speaks "u1" .null .null
    (.str "voice") untouchedWorld
  rw [hrun, hrun'] at hsame
  exact ⟨⟨c, none⟩, r, r', _, accepted, speaks, Prod.ext hrun hworlds, Prod.ext hrun' rfl,
    hdiffer, Except.ok.inj hsame⟩

end Flow

end Questionnaire
