import Questionnaire.Proofs.Catalog.Questions
import Questionnaire.Proofs.State.Selection

/-!
# Nothing left to ask, nothing left to answer

Two traversals go over the questions of some stages: one selects the next question, the other lists
the required questions without a value.  Where the first finds nothing, the second lists at most
questions whose values stand for missing ones.

The traversals test a question in different orders.  The second looks at the way of collecting an
answer before it looks at the module, so it also fails for a question that is left out.

## Main Definitions

* `State.InScope` - a question is gone through in some stages
* `State.PassedOver` - why a question is not asked
* `State.CollectsReadably` - the ways of collecting answers in some stages can be read

## Main Statements

* `State.PassedOver.exists_placeholder` - a question that is not asked is missing only with a
  placeholder
* `State.missingIn_eq_ok_iff` - what is missing is known if each question can be tested
* `State.missing_of_nextQuestion?_eq_none` - where nothing is asked, only placeholders are missing
-/

namespace Questionnaire.State

variable {c : Catalog} {s : State} {stage : Stage} {q : Question}

/-- A question of one of the stages is gone through when the condition of the stage holds. -/
def InScope (c : Catalog) (s : State) (stages : List Stage) (stage : Stage) (q : Question) : Prop :=
  stage ∈ stages ∧ s.holds stage.askIf = true ∧ q ∈ c.questionsOf stage

/-- The ways of collecting answers can be read in all questions for customers in some stages. -/
def CollectsReadably (c : Catalog) (s : State) (keys : List Json) : Prop :=
  ∀ stages, stagesWithin c keys = .ok stages → ∀ stage q, InScope c s stages stage q →
    q.isForCustomer = true → ∃ b, q.isOutOfBand = .ok b

/-! ## One question -/

/-- Why a question is not asked; each test comes after the ones that did not settle the matter. -/
inductive PassedOver (s : State) (stage : Stage) (q : Question) : Prop where
  /-- It is not for customers. -/
  | internal (audience : q.isForCustomer = false)
  /-- Its module is not enabled. -/
  | gatedOut (customer : q.isForCustomer = true) (gated : s.isGatedOut stage q = .ok true)
  /-- Its answer is delivered outside the conversation. -/
  | outOfBand (customer : q.isForCustomer = true) (gated : s.isGatedOut stage q = .ok false)
    (outside : q.isOutOfBand = .ok true)
  /-- Its value was given. -/
  | settled (customer : q.isForCustomer = true) (gated : s.isGatedOut stage q = .ok false)
    (outside : q.isOutOfBand = .ok false) (settled : s.isSettled q = .ok true)
  /-- One of its conditions fails. -/
  | unneeded (customer : q.isForCustomer = true) (gated : s.isGatedOut stage q = .ok false)
    (outside : q.isOutOfBand = .ok false) (open_ : s.isSettled q = .ok false)
    (conditions : (s.holds q.askIf && s.holds q.requiredIf) = false)

theorem passedOver_of_shouldAsk (h : s.shouldAsk stage q = .ok false) : PassedOver s stage q := by
  unfold shouldAsk at h
  split at h
  · next audience => exact .internal (by simpa using audience)
  next customer =>
  have customer : q.isForCustomer = true := by simpa using customer
  obtain ⟨gated, hgated, h⟩ := Outcome.bind_eq_ok_iff.1 h
  cases gated with
  | true => exact .gatedOut customer hgated
  | false =>
    obtain ⟨outside, houtside, h⟩ := Outcome.bind_eq_ok_iff.1 h
    cases outside with
    | true => exact .outOfBand customer hgated houtside
    | false =>
      obtain ⟨settled, hsettled, h⟩ := Outcome.bind_eq_ok_iff.1 h
      cases settled with
      | true => exact .settled customer hgated houtside hsettled
      | false => exact .unneeded customer hgated houtside hsettled (Except.ok.inj h)

/-- A value that was given and does not count as present is a placeholder. -/
theorem exists_placeholder {v : Json} (answered : v.isAnswered = true)
    (absent : v.isPresent = false) : ∃ text, v = .str text ∧ Json.isPlaceholder text = true := by
  cases v with
  | str text => simp_all [Json.isAnswered, Json.isPresent]
  | _ => exact absurd (answered.symm.trans absent) (by decide)

theorem isMissing_internal (audience : q.isForCustomer = false) :
    s.isMissing stage q = .ok false := by
  unfold isMissing
  simp [audience]

/-- Whether an answer can be given in the conversation is tested first. -/
theorem isMissing_of_customer (customer : q.isForCustomer = true) :
    s.isMissing stage q = do
      if ← q.isOutOfBand then return false
      if ← s.isGatedOut stage q then return false
      if !s.isRequired q then return false
      let v ← s.values.at q.fieldKey
      return !v.isPresent := by
  unfold isMissing
  simp [customer]

/-- What a question for customers that is asked within the conversation lacks. -/
theorem isMissing_of_inside (customer : q.isForCustomer = true)
    (outside : q.isOutOfBand = .ok false) (gated : s.isGatedOut stage q = .ok false) :
    s.isMissing stage q =
      if s.isRequired q then (fun v => !v.isPresent) <$> s.values.at q.fieldKey else .ok false := by
  rw [isMissing_of_customer customer, outside, Outcome.ok_bind, gated, Outcome.ok_bind]
  cases s.isRequired q <;> rfl

theorem isSettled_eq_true (h : s.isSettled q = .ok true) :
    ∃ v, s.values.at q.fieldKey = .ok v ∧ v.isAnswered = true := by
  obtain ⟨key, hkey, h⟩ := Outcome.bind_eq_ok_iff.1 h
  refine ⟨s.valueOf key, ?_, (Bool.and_eq_true_iff.1 (Except.ok.inj h)).2⟩
  rw [Fields.at, hkey]
  rfl

/-- A question that is not asked is missing only with a placeholder. -/
theorem PassedOver.exists_placeholder (passed : PassedOver s stage q)
    (h : s.isMissing stage q = .ok true) :
    ∃ text, s.values.at q.fieldKey = .ok (.str text) ∧ Json.isPlaceholder text = true := by
  cases passed with
  | internal audience =>
    rw [isMissing_internal audience] at h
    cases h
  | gatedOut customer gated =>
    rw [isMissing_of_customer customer, gated] at h
    obtain ⟨outside, -, h⟩ := Outcome.bind_eq_ok_iff.1 h
    cases outside <;> cases h
  | outOfBand customer gated outside =>
    rw [isMissing_of_customer customer, outside] at h
    cases h
  | settled customer gated outside settled =>
    obtain ⟨v, hv, answered⟩ := isSettled_eq_true settled
    rw [isMissing_of_inside customer outside gated, hv] at h
    split at h
    · have absent : v.isPresent = false := by simpa using Except.ok.inj h
      obtain ⟨text, rfl, placeholder⟩ := State.exists_placeholder answered absent
      exact ⟨text, hv, placeholder⟩
    · cases h
  | unneeded customer gated outside open_ conditions =>
    have optional : s.isRequired q = false := by
      rw [isRequired, Bool.and_assoc, conditions, Bool.and_false]
    rw [isMissing_of_inside customer outside gated, optional] at h
    cases h

/-- Whether a question that is not asked lacks a value is known if its way of collecting can be
read. -/
theorem PassedOver.isMissing_eq_ok_iff (passed : PassedOver s stage q) :
    (∃ b, s.isMissing stage q = .ok b) ↔ (q.isForCustomer = true → ∃ b, q.isOutOfBand = .ok b) := by
  cases passed with
  | internal audience =>
    exact iff_of_true ⟨false, isMissing_internal audience⟩ fun customer => by
      rw [audience] at customer
      cases customer
  | gatedOut customer gated =>
    rw [isMissing_of_customer customer, gated]
    constructor
    · rintro ⟨b, h⟩ -
      obtain ⟨outside, houtside, -⟩ := Outcome.bind_eq_ok_iff.1 h
      exact ⟨outside, houtside⟩
    · intro h
      obtain ⟨outside, houtside⟩ := h customer
      rw [houtside]
      cases outside <;> exact ⟨false, rfl⟩
  | outOfBand customer gated outside =>
    refine iff_of_true ⟨false, ?_⟩ fun _ => ⟨true, outside⟩
    rw [isMissing_of_customer customer, outside]
    rfl
  | settled customer gated outside settled =>
    obtain ⟨v, hv, -⟩ := isSettled_eq_true settled
    refine iff_of_true ?_ fun _ => ⟨false, outside⟩
    rw [isMissing_of_inside customer outside gated, hv]
    split <;> exact ⟨_, rfl⟩
  | unneeded customer gated outside open_ conditions =>
    refine iff_of_true ⟨false, ?_⟩ fun _ => ⟨false, outside⟩
    have optional : s.isRequired q = false := by
      rw [isRequired, Bool.and_assoc, conditions, Bool.and_false]
    rw [isMissing_of_inside customer outside gated, optional]
    rfl

/-! ## The questions of some stages -/

theorem inScope_cons {first : Stage} {rest : List Stage} :
    InScope c s (first :: rest) stage q ↔
      (stage = first ∧ s.holds first.askIf = true ∧ q ∈ c.questionsOf first) ∨
        InScope c s rest stage q := by
  unfold InScope
  rw [List.mem_cons, or_and_right]
  exact or_congr_left (and_congr_right fun h => by rw [h])

theorem firstOf?_eq_none {questions : List Question} (h : s.firstOf? stage questions = .ok none) :
    ∀ q ∈ questions, s.shouldAsk stage q = .ok false := by
  induction questions with
  | nil => exact nofun
  | cons q rest ih =>
    obtain ⟨asked, hasked, h⟩ := Outcome.bind_eq_ok_iff.1 h
    cases asked with
    | true => cases h
    | false => exact List.forall_mem_cons.2 ⟨hasked, ih h⟩

/-- Where no question is selected, none of the stages asks one. -/
theorem firstIn?_eq_none {channel : Json} {stages : List Stage}
    (h : s.firstIn? c channel stages = .ok none) :
    ∀ stage q, InScope c s stages stage q → s.shouldAsk stage q = .ok false := by
  induction stages with
  | nil => exact fun stage q scope => nomatch scope.1
  | cons first rest ih =>
    intro stage q scope
    rw [firstIn?] at h
    split at h
    · obtain ⟨found, hfound, h⟩ := Outcome.bind_eq_ok_iff.1 h
      cases found with
      | some q' => cases h
      | none =>
        rcases inScope_cons.1 scope with ⟨rfl, -, hq⟩ | scope
        · exact firstOf?_eq_none hfound q hq
        · exact ih h stage q scope
    · next fails =>
      rcases inScope_cons.1 scope with ⟨-, holds, -⟩ | scope
      · exact absurd holds fails
      · exact ih h stage q scope

/-- What is missing in some stages was found missing in one of them. -/
theorem isMissing_of_mem_missingIn {stages : List Stage} {missing : List Question}
    (h : s.missingIn c stages = .ok missing) (hq : q ∈ missing) :
    ∃ stage, InScope c s stages stage q ∧ s.isMissing stage q = .ok true := by
  induction stages generalizing missing with
  | nil =>
    cases h
    cases hq
  | cons first rest ih =>
    have further {missing : List Question} (h : s.missingIn c rest = .ok missing)
        (hq : q ∈ missing) :
        ∃ stage, InScope c s (first :: rest) stage q ∧ s.isMissing stage q = .ok true := by
      obtain ⟨stage, scope, hmissing⟩ := ih h hq
      exact ⟨stage, inScope_cons.2 (.inr scope), hmissing⟩
    rw [missingIn] at h
    split at h
    · next holds =>
      obtain ⟨here, hhere, h⟩ := Outcome.bind_eq_ok_iff.1 h
      obtain ⟨rest', hrest, h⟩ := Outcome.bind_eq_ok_iff.1 h
      cases h
      rcases List.mem_append.1 hq with hq | hq
      · obtain ⟨hmem, hmissing⟩ := Outcome.mem_of_filterM hhere hq
        exact ⟨first, inScope_cons.2 (.inl ⟨rfl, holds, hmem⟩), hmissing⟩
      · exact further hrest hq
    · exact further h hq

/-- What is missing in some stages is known exactly if each of their questions can be tested. -/
theorem missingIn_eq_ok_iff {stages : List Stage} :
    (∃ missing, s.missingIn c stages = .ok missing) ↔
      ∀ stage q, InScope c s stages stage q → ∃ b, s.isMissing stage q = .ok b := by
  induction stages with
  | nil => exact iff_of_true ⟨[], rfl⟩ fun stage q scope => nomatch scope.1
  | cons first rest ih =>
    rw [missingIn]
    split
    · next holds =>
      constructor
      · rintro ⟨missing, h⟩ stage q scope
        obtain ⟨here, hhere, h⟩ := Outcome.bind_eq_ok_iff.1 h
        obtain ⟨rest', hrest, -⟩ := Outcome.bind_eq_ok_iff.1 h
        rcases inScope_cons.1 scope with ⟨rfl, -, hq⟩ | scope
        · exact Outcome.filterM_eq_ok_iff.1 ⟨here, hhere⟩ q hq
        · exact ih.1 ⟨rest', hrest⟩ stage q scope
      · intro h
        obtain ⟨here, hhere⟩ :
            ∃ here, (c.questionsOf first).filterM (s.isMissing first) = .ok here :=
          Outcome.filterM_eq_ok_iff.2 fun q hq => h first q (inScope_cons.2 (.inl ⟨rfl, holds, hq⟩))
        obtain ⟨rest', hrest⟩ := ih.2 fun stage q scope => h stage q (inScope_cons.2 (.inr scope))
        exact ⟨here ++ rest', by rw [hhere, hrest]; rfl⟩
    · next fails =>
      rw [ih]
      refine forall₂_congr fun stage q => imp_congr_left ?_
      rw [inScope_cons]
      exact (or_iff_right fun here => fails here.2.1).symm

/-! ## Sections -/

/-- Where no question is left to ask, each of the stages' questions was passed over. -/
theorem passedOver_of_nextQuestion? {keys : List Json} {channel : Json}
    (h : s.nextQuestion? c (some keys) channel = .ok none) :
    ∃ stages, stagesWithin c keys = .ok stages ∧
      ∀ stage q, InScope c s stages stage q → PassedOver s stage q := by
  obtain ⟨stages, hstages, h⟩ := Outcome.bind_eq_ok_iff.1 h
  exact ⟨stages, hstages, fun stage q scope =>
    passedOver_of_shouldAsk (firstIn?_eq_none h stage q scope)⟩

/-- Where no question is left to ask, a required question can lack a value only by holding a
placeholder.  What is missing is known exactly if the ways of collecting answers can be read, and
then a section without placeholders is complete. -/
theorem missing_of_nextQuestion?_eq_none {c : Catalog} {s : State} {keys : List Json}
    {channel : Json} (h : s.nextQuestion? c (some keys) channel = .ok none) :
    (∀ missing, s.missingQuestions c keys = .ok missing → ∀ q ∈ missing,
      ∃ text, s.values.at q.fieldKey = .ok (.str text) ∧ Json.isPlaceholder text = true) ∧
    ((∃ missing, s.missingQuestions c keys = .ok missing) ↔ CollectsReadably c s keys) ∧
    (CollectsReadably c s keys →
      (∀ key text, Assoc.valueAt? key s.values = some (.str text) →
        Json.isPlaceholder text = false) →
      ∀ askIf, s.isComplete c keys askIf = .ok true) := by
  obtain ⟨stages, hstages, passed⟩ := passedOver_of_nextQuestion? h
  have hmissing : s.missingQuestions c keys = s.missingIn c stages := by
    rw [missingQuestions, hstages, Outcome.ok_bind]
  have placeholder : ∀ missing, s.missingQuestions c keys = .ok missing → ∀ q ∈ missing,
      ∃ text, s.values.at q.fieldKey = .ok (.str text) ∧ Json.isPlaceholder text = true := by
    intro missing h q hq
    obtain ⟨stage, scope, hq⟩ := isMissing_of_mem_missingIn (hmissing ▸ h) hq
    exact (passed stage q scope).exists_placeholder hq
  have known : (∃ missing, s.missingQuestions c keys = .ok missing) ↔
      CollectsReadably c s keys := by
    rw [hmissing, missingIn_eq_ok_iff]
    constructor
    · intro h stages' hstages' stage q scope
      cases hstages.symm.trans hstages'
      exact (passed stage q scope).isMissing_eq_ok_iff.1 (h stage q scope)
    · intro h stage q scope
      exact (passed stage q scope).isMissing_eq_ok_iff.2 (h stages hstages stage q scope)
  refine ⟨placeholder, known, fun readable clear askIf => ?_⟩
  obtain ⟨missing, hknown⟩ := known.2 readable
  have none : missing = [] := by
    refine List.eq_nil_iff_forall_not_mem.2 fun q hq => ?_
    obtain ⟨text, hvalue, hplaceholder⟩ := placeholder missing hknown q hq
    obtain ⟨key, hkey, hvalue⟩ := Outcome.bind_eq_ok_iff.1 hvalue
    cases hstored : Assoc.valueAt? key s.values with
    | none =>
      rw [hstored] at hvalue
      cases hvalue
    | some v =>
      rw [hstored] at hvalue
      cases hvalue
      rw [clear key text hstored] at hplaceholder
      cases hplaceholder
  unfold isComplete
  split
  · rfl
  · rw [hknown, none]
    rfl

/-- A catalog that asks for a name. -/
def naming : Json :=
  .obj [
    ("questions", .arr [.obj [("qid", .str "Q1"), ("field_key", .str "name")]]),
    ("stages", .arr [.obj [("stage_key", .str "s"), ("question_ids", .arr [.str "Q1"])]])]

/-- The name was answered with a word that stands for no name. -/
theorem missing_of_nextQuestion?_eq_none_name : ∃ c s missing, c.Accepted ∧
    s.nextQuestion? c (some [.str "s"]) .null = .ok none ∧
    s.missingQuestions c [.str "s"] = .ok missing ∧ missing ≠ [] ∧ CollectsReadably c s [.str "s"] ∧
    ∀ q ∈ missing,
      ∃ text, s.values.at q.fieldKey = .ok (.str text) ∧ Json.isPlaceholder text = true := by
  have evaluated : Outcome.Gives (Catalog.ofJson naming "catalog.json") fun e =>
      Outcome.Gives (ofFields e.1 [(.str "name", .str " NULL ")] none) fun s =>
        Outcome.Gives (s.nextQuestion? e.1 (some [.str "s"]) .null) (fun nq => nq.isNone = true) ∧
        Outcome.Gives (s.missingQuestions e.1 [.str "s"]) fun missing => missing.length = 1 := by
    decide +kernel
  obtain ⟨⟨c, warnings⟩, hc, s, -, ⟨nq, hnext, hnone⟩, missing, hmissing, hlength⟩ := evaluated
  rw [Option.isNone_iff_eq_none.1 hnone] at hnext
  obtain ⟨placeholder, known, -⟩ := missing_of_nextQuestion?_eq_none hnext
  refine ⟨c, s, missing, ⟨naming, "catalog.json", warnings, hc⟩, hnext, hmissing, ?_,
    known.1 ⟨missing, hmissing⟩, placeholder missing hmissing⟩
  rintro rfl
  cases hlength

/-- A catalog whose only question belongs to a module that is never enabled, and whose way of
collecting is a number. -/
def unreadable : Json :=
  .obj [
    ("questions", .arr [.obj [("qid", .str "Q1"), ("field_key", .str "deed"),
      ("module_key", .str "building"), ("collection_mode", .int 5)]]),
    ("stages", .arr [.obj [("stage_key", .str "s"), ("question_ids", .arr [.str "Q1"])]])]

/-- Nothing is asked and no field has a value, but whether the section is complete is not known: the
question that is left out is tested all the same. -/
theorem incomplete_unreadable : ∃ c s, c.Accepted ∧ ofFields c [] none = .ok s ∧ s.values = [] ∧
    s.nextQuestion? c (some [.str "s"]) .null = .ok none ∧
    ¬ (∃ missing, s.missingQuestions c [.str "s"] = .ok missing) ∧
    s.isComplete c [.str "s"] (.str "") ≠ .ok true := by
  have evaluated : Outcome.Gives (Catalog.ofJson unreadable "catalog.json") fun e =>
      Outcome.Gives (ofFields e.1 [] none) fun s => s.values.isEmpty = true ∧
        Outcome.Gives (s.nextQuestion? e.1 (some [.str "s"]) .null) (fun nq => nq.isNone = true) ∧
        ¬ Outcome.Gives (s.missingQuestions e.1 [.str "s"]) (fun _ => True) ∧
        ¬ Outcome.Gives (s.isComplete e.1 [.str "s"] (.str "")) (fun b => b = true) := by
    decide +kernel
  obtain ⟨⟨c, warnings⟩, hc, s, hs, hvalues, ⟨nq, hnext, hnone⟩, unknown, incomplete⟩ := evaluated
  rw [Option.isNone_iff_eq_none.1 hnone] at hnext
  exact ⟨c, s, ⟨unreadable, "catalog.json", warnings, hc⟩, hs, List.isEmpty_iff.1 hvalues, hnext,
    fun ⟨missing, h⟩ => unknown ⟨missing, h, trivial⟩, fun h => incomplete ⟨true, h, rfl⟩⟩

end Questionnaire.State
