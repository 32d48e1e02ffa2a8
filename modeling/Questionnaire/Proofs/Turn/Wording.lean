import Mathlib.Data.List.Forall2
import Questionnaire.Proofs.State.Selection
import Questionnaire.Proofs.Turn.Coupling
import Questionnaire.Turn.Flow

/-!
# What the channel changes

A channel chooses among the wordings of a question and of the introduction of a stage.  Seen from
two channels, the same question is asked in other words, and a result says the same in other words.

## Main Definitions

* `Catalog.SpeaksText` - every wording of a question or an introduction is a text
* `Rephrased` - two values are equal, or two texts where texts may differ
* `NextQuestion.Rephrased`, `TurnResult.Rephrased` - the same question and the same result in other
  words
* `TurnResult.unworded` - a result without its wording

## Main Statements

* `State.rephrased_nextQuestion?` - the same question is selected on both channels
* `Flow.rephrased_composeIntro`, `Flow.rephrased_prompt` - the wording fails on both channels or on
  neither

## Design Notes

Wherever texts may differ they are joined into one text, which succeeds for texts and fails for
other values.  A wording that is no text would make one channel fail and the other not.  The
proposition `free` tells whether texts may differ at all; where it is false, everything that is
rephrased is the same.
-/

namespace Questionnaire

open Outcome (Agree)

/-! ## Texts -/

/-- A value is a text. -/
def Json.isText : Json → Bool
  | .str _ => true
  | _ => false

theorem Json.isText_iff {v : Json} : v.isText = true ↔ ∃ s, v = .str s := by
  cases v <;> simp [isText]

/-- Every wording is a text. -/
def Variants.AreTexts (variants : Variants) (standard : Json) : Prop :=
  standard.isText = true ∧ ∀ v ∈ variants, v.2.isText = true

instance (variants : Variants) (standard : Json) : Decidable (variants.AreTexts standard) :=
  inferInstanceAs (Decidable (_ ∧ _))

/-- Every wording of a question or an introduction is a text. -/
structure Catalog.SpeaksText (c : Catalog) : Prop where
  /-- The wordings of questions are texts. -/
  prompts : ∀ e ∈ c.questions, e.2.promptVariants.AreTexts e.2.prompt
  /-- The wordings of introductions are texts. -/
  intros : ∀ stage ∈ c.stages, stage.introVariants.AreTexts stage.intro

instance (c : Catalog) : Decidable c.SpeaksText :=
  decidable_of_iff
    ((∀ e ∈ c.questions, e.2.promptVariants.AreTexts e.2.prompt) ∧
      ∀ stage ∈ c.stages, stage.introVariants.AreTexts stage.intro)
    ⟨fun h => ⟨h.1, h.2⟩, fun h => ⟨h.prompts, h.intros⟩⟩

theorem Variants.isText_textFor {variants : Variants} {standard : Json}
    (texts : variants.AreTexts standard) (channel : Json) :
    (variants.textFor standard channel).isText = true := by
  unfold textFor
  split
  · split
    · rename_i v hv
      exact texts.2 v (List.mem_of_find?_eq_some hv)
    · exact texts.1
  · exact texts.1

/-! ## Other words -/

/-- Two values are equal, or two texts where texts may differ. -/
def Rephrased (free : Prop) (v w : Json) : Prop :=
  v = w ∨ free ∧ v.isText = true ∧ w.isText = true

/-- The same question in other words. -/
inductive NextQuestion.Rephrased (free : Prop) : NextQuestion → NextQuestion → Prop where
  /-- Two wordings of a question. -/
  | intro (q : NextQuestion) {text text' : Json} (h : Questionnaire.Rephrased free text text') :
      Rephrased free { q with prompt := text } { q with prompt := text' }

/-- The same result in other words. -/
inductive TurnResult.Rephrased (free : Prop) : TurnResult → TurnResult → Prop where
  /-- Two wordings of a result. -/
  | intro (r : TurnResult) {output output' intro intro' : String}
      {question question' : Option NextQuestion} (houtput : output = output' ∨ free)
      (hintro : intro = intro' ∨ free)
      (hquestion : Option.Rel (NextQuestion.Rephrased free) question question') :
      Rephrased free { r with output := output, intro := intro, question := question }
        { r with output := output', intro := intro', question := question' }

/-- A question without its wording. -/
def NextQuestion.unworded (q : NextQuestion) : NextQuestion := { q with prompt := .null }

/-- A result without its wording: what it leads to and what it did. -/
def TurnResult.unworded (r : TurnResult) : TurnResult :=
  { r with output := "", intro := "", question := r.question.map NextQuestion.unworded }

variable {free : Prop}

theorem Rephrased.eq (h : ¬ free) {v w : Json} (hvw : Rephrased free v w) : v = w :=
  hvw.resolve_right fun hfree => h hfree.1

theorem NextQuestion.Rephrased.refl (q : NextQuestion) : NextQuestion.Rephrased free q q :=
  .intro q (.inl rfl)

theorem NextQuestion.Rephrased.eq (h : ¬ free) {q q' : NextQuestion}
    (hq : NextQuestion.Rephrased free q q') : q = q' := by
  cases hq with
  | intro q htext => rw [htext.eq h]

theorem NextQuestion.Rephrased.unworded {q q' : NextQuestion}
    (hq : NextQuestion.Rephrased free q q') : q.unworded = q'.unworded := by
  cases hq
  rfl

/-- Whether a question is another one than that of a position does not depend on its words. -/
theorem NextQuestion.rephrased_filter {q? q?' : Option NextQuestion}
    (h : Option.Rel (NextQuestion.Rephrased free) q? q?') (position : Json) :
    Option.Rel (NextQuestion.Rephrased free) (q?.filter fun q => !q.qid.equal position)
      (q?'.filter fun q => !q.qid.equal position) := by
  cases h with
  | none => exact .none
  | some hq =>
    cases hq with
    | intro q htext =>
      rw [Option.filter_some, Option.filter_some]
      dsimp only
      split
      · exact .some (.intro q htext)
      · exact .none

namespace TurnResult.Rephrased

variable {r r' : TurnResult}

theorem refl (r : TurnResult) : TurnResult.Rephrased free r r := by
  refine .intro r (.inl rfl) (.inl rfl) ?_
  cases r.question with
  | none => exact .none
  | some q => exact .some (.refl q)

/-- Where texts may not differ, the results are the same. -/
theorem eq (h : ¬ free) (hr : TurnResult.Rephrased free r r') : r = r' := by
  cases hr with
  | intro r houtput hintro hquestion =>
    rw [houtput.resolve_right h, hintro.resolve_right h]
    cases hquestion with
    | none => rfl
    | some hq => rw [hq.eq h]

/-- But for their wording the results are the same. -/
theorem unworded (hr : TurnResult.Rephrased free r r') : r.unworded = r'.unworded := by
  cases hr with
  | intro r houtput hintro hquestion =>
    cases hquestion with
    | none => rfl
    | some hq => simp only [TurnResult.unworded, Option.map_some, hq.unworded]

end TurnResult.Rephrased

/-! ## Joining texts -/

namespace Flow

/-- What is made of the filled ones of some values fails for both or for neither, if it succeeds for
texts. -/
theorem rephrased_mapM {g : Json → Except Fault String} (hg : ∀ s, ∃ t, g (.str s) = .ok t)
    {xs ys : List Json} (h : List.Forall₂ (Rephrased free) xs ys) :
    Agree (fun ts ts' => ts = ts' ∨ free) ((xs.filter Json.isFilled).mapM g)
      ((ys.filter Json.isFilled).mapM g) := by
  -- a filled text adds its result, a blank one adds nothing
  have text_cons : ∀ (v : Json) (rest : List Json), v.isText = true →
      ∃ add : List String → List String, ((v :: rest).filter Json.isFilled).mapM g =
        (rest.filter Json.isFilled).mapM g >>= fun ts => pure (add ts) := by
    intro v rest hv
    obtain ⟨s, rfl⟩ := Json.isText_iff.1 hv
    obtain ⟨t, ht⟩ := hg s
    by_cases hs : (Json.str s).isFilled = true
    · refine ⟨(t :: ·), ?_⟩
      rw [List.filter_cons_of_pos hs, List.mapM_cons, ht, Outcome.ok_bind]
    · refine ⟨id, ?_⟩
      rw [List.filter_cons_of_neg hs]
      exact (bind_pure _).symm
  induction h with
  | nil => exact .ok (.inl rfl)
  | @cons v w xs ys hvw _ ih =>
    obtain rfl | ⟨hfree, hv, hw⟩ := hvw
    · by_cases hv : v.isFilled = true
      · rw [List.filter_cons_of_pos hv, List.filter_cons_of_pos hv, List.mapM_cons,
          List.mapM_cons]
        refine Agree.bind_same fun t _ => ih.bind fun ts ts' hts => .ok ?_
        exact hts.imp_left fun h => by rw [h]
      · rw [List.filter_cons_of_neg hv, List.filter_cons_of_neg hv]
        exact ih
    · obtain ⟨add, hadd⟩ := text_cons v xs hv
      obtain ⟨add', hadd'⟩ := text_cons w ys hw
      rw [hadd, hadd']
      exact ih.bind fun _ _ _ => .ok (.inr hfree)

/-- Joining fails for both or for neither. -/
theorem rephrased_joinParts {xs ys : List Json} (h : List.Forall₂ (Rephrased free) xs ys) :
    Agree (fun t t' => t = t' ∨ free) (joinParts xs) (joinParts ys) := by
  refine (rephrased_mapM (fun s => ⟨s, rfl⟩) h).bind fun ts ts' hts => .ok ?_
  exact hts.imp_left fun h => by rw [h]

/-- Joining without the blanks around fails for both or for neither. -/
theorem rephrased_joinTrimmed {xs ys : List Json} (h : List.Forall₂ (Rephrased free) xs ys) :
    Agree (fun t t' => t = t' ∨ free) (joinTrimmed xs) (joinTrimmed ys) := by
  refine (rephrased_mapM (fun s => ⟨Text.trim s, rfl⟩) h).bind fun ts ts' hts => .ok ?_
  exact hts.imp_left fun h => by rw [h]

end Flow

/-! ## Questions on two channels -/

section Channels

variable {c : Catalog} {s : State} {channel channel' : Json}

/-- The wordings for two channels. -/
theorem Variants.rephrased_textFor {variants : Variants} {standard : Json}
    (texts : channel ≠ channel' → variants.AreTexts standard) :
    Rephrased (channel ≠ channel') (variants.textFor standard channel)
      (variants.textFor standard channel') := by
  by_cases h : channel = channel'
  · rw [h]
    exact .inl rfl
  · exact .inr ⟨h, isText_textFor (texts h) channel, isText_textFor (texts h) channel'⟩

variable (speaks : channel ≠ channel' → c.SpeaksText)
include speaks

theorem State.rephrased_present {q : Question} (hq : c.Holds q) (stage : Stage) :
    NextQuestion.Rephrased (channel ≠ channel') (present stage channel q)
      (present stage channel' q) := by
  obtain ⟨e, he, rfl⟩ := hq
  exact .intro (present stage channel e.2)
    (Variants.rephrased_textFor fun h => (speaks h).prompts e he)

theorem State.rephrased_firstIn? (stages : List Stage) :
    Agree (Option.Rel (NextQuestion.Rephrased (channel ≠ channel')))
      (s.firstIn? c channel stages) (s.firstIn? c channel' stages) := by
  induction stages with
  | nil => exact .ok .none
  | cons stage rest ih =>
    unfold firstIn?
    split
    · refine Agree.bind_same fun q? hq => ?_
      cases q? with
      | some q =>
        have held := Catalog.holds_of_mem_questionsOf (mem_of_firstOf? hq).1
        exact .ok (.some (rephrased_present speaks held stage))
      | none => exact ih
    · exact ih

/-- The same question is selected on both channels, and nothing fails on only one of them. -/
theorem State.rephrased_nextQuestion? (keys : Option (List Json)) :
    Agree (Option.Rel (NextQuestion.Rephrased (channel ≠ channel')))
      (s.nextQuestion? c keys channel) (s.nextQuestion? c keys channel') := by
  cases keys with
  | none => exact rephrased_firstIn? speaks c.stages
  | some keys => exact Agree.bind_same fun stages _ => rephrased_firstIn? speaks stages

theorem Catalog.rephrased_view {q : Question} (hq : c.Holds q) :
    Agree (NextQuestion.Rephrased (channel ≠ channel')) (c.view q channel) (c.view q channel') :=
  Agree.bind_same fun stage _ => .ok (State.rephrased_present speaks hq stage)

omit speaks

namespace Flow

/-! ## Results on two channels -/

/-- The text before a question fails on both channels or on neither. -/
theorem rephrased_composeIntro {f : Flow} (speaks : channel ≠ channel' → f.catalog.SpeaksText)
    (s : State) (previous next : Json) (lead : String) :
    Agree (fun t t' => t = t' ∨ channel ≠ channel') (f.composeIntro s previous next channel lead)
      (f.composeIntro s previous next channel' lead) := by
  have join (left : Option String) {entered entered' : Json}
      (h : Rephrased (channel ≠ channel') entered entered') :
      Agree (fun t t' => t = t' ∨ channel ≠ channel')
        (joinTrimmed [.str lead, .str (left.getD ""), entered])
        (joinTrimmed [.str lead, .str (left.getD ""), entered']) :=
    rephrased_joinTrimmed (.cons (.inl rfl) (.cons (.inl rfl) (.cons h .nil)))
  unfold composeIntro
  split
  · exact .refl (fun _ => .inl rfl) _
  · -- the checkpoint of the stage that is left does not look at the channel
    dsimp only
    split <;>
    · refine Agree.bind_same fun left _ => Agree.bind_same fun key _ => join left ?_
      cases hstage : f.catalog.stage? key with
      | none => exact .inl rfl
      | some stage =>
        have hmem := List.mem_of_find?_eq_some hstage
        exact Variants.rephrased_textFor fun h => (speaks h).intros stage hmem

/-- Asking a question in other words gives a result in other words. -/
theorem rephrased_prompt {q q' : NextQuestion} (hq : NextQuestion.Rephrased free q q')
    (section_ : Json) (transitions : List FlowStatus) (parts : PromptParts) {intro intro' : String}
    (hintro : intro = intro' ∨ free) :
    Agree (TurnResult.Rephrased free)
      (prompt q section_ transitions { parts with intro := intro })
      (prompt q' section_ transitions { parts with intro := intro' }) := by
  cases hq with
  | intro q htext =>
    refine (rephrased_joinParts ?_).bind fun output output' houtput =>
      .ok (.intro { kind := .prompt, output := output, sectionKey := section_,
                    error := parts.error, isStale := parts.isStale, transitions := transitions,
                    note := parts.note } houtput hintro (.some (.intro q htext)))
    refine .cons (.inl rfl) (.cons ?_ (.cons ?_ .nil))
    · exact hintro.imp (congrArg Json.str) fun h => ⟨h, rfl, rfl⟩
    · -- a text in the place of the question hides both wordings
      unfold Json.filledOr
      split
      · exact .inl rfl
      · exact htext

end Flow

end Channels

end Questionnaire
