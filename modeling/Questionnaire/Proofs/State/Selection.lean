import Questionnaire.Proofs.Lookup
import Questionnaire.Proofs.Outcome
import Questionnaire.State.Checks

/-!
# Which questions are selected

A question that is asked next, and one that is still missing, is a question of the catalog.  It is
for customers, and it is not answered outside the conversation.

## Main Definitions

* `Catalog.Asks` - a question of a catalog that may be asked
* `Catalog.stagesIn` - the stages that a question is selected from

## Main Statements

* `State.selected_of_nextQuestion?` - the next question is asked in one of the stages looked at
* `State.asks_of_nextQuestion?` - the next question may be asked
* `State.asks_of_missingQuestions` - a missing question may be asked
* `State.nextQuestion?_eq_some` - the next question is one of the catalog, as it is shown
* `State.nextQuestion?_channel` - on every channel the same question is selected
* `State.mem_missingQuestions` - a missing question is one of the catalog
-/

namespace Questionnaire

/-- A question of a catalog. -/
def Catalog.Holds (c : Catalog) (q : Question) : Prop := ∃ e ∈ c.questions, e.2 = q

theorem Catalog.holds_of_question? {c : Catalog} {qid : Json} {q : Question}
    (h : c.question? qid = some q) : c.Holds q := by
  obtain ⟨e, he, -, heq⟩ := Assoc.mem_of_valueAt? h
  exact ⟨e, he, heq⟩

theorem Catalog.holds_of_mem_questionsOf {c : Catalog} {stage : Stage} {q : Question}
    (h : q ∈ c.questionsOf stage) : c.Holds q := by
  obtain ⟨qid, -, hq⟩ := List.mem_filterMap.1 h
  exact holds_of_question? hq

/-- A question of a catalog that may be asked: it is for customers, and it is answered in the
conversation. -/
structure Catalog.Asks (c : Catalog) (q : Question) : Prop where
  /-- It is one of the catalog. -/
  holds : c.Holds q
  /-- It is for customers. -/
  forCustomer : q.isForCustomer = true
  /-- It is not answered outside the conversation. -/
  inBand : q.isOutOfBand = .ok false

/-- The stages that a question is selected from: those with the given keys, or all of them. -/
def Catalog.stagesIn (c : Catalog) : Option (List Json) → List Stage
  | some keys => c.stages.filter fun stage => keys.contains stage.key
  | none => c.stages

/-- Keys that may be looked up are taken as they are. -/
theorem Json.eq_of_mapM_asKey {keys keys' : List Json} (h : keys.mapM asKey = .ok keys') :
    keys' = keys := by
  induction keys generalizing keys' with
  | nil =>
    cases h
    rfl
  | cons key rest ih =>
    rw [List.mapM_cons] at h
    obtain ⟨k, hk, h⟩ := Outcome.bind_eq_ok_iff.1 h
    obtain ⟨rest', hrest, h⟩ := Outcome.bind_eq_ok_iff.1 h
    cases h
    rw [ih hrest, ((asKey_eq_ok_iff _ _).1 hk).2]

namespace State

variable {c : Catalog} {s : State}

theorem mem_of_firstOf? {stage : Stage} {questions : List Question} {q : Question}
    (h : s.firstOf? stage questions = .ok (some q)) :
    q ∈ questions ∧ s.shouldAsk stage q = .ok true := by
  induction questions with
  | nil => cases h
  | cons q' rest ih =>
    obtain ⟨asked, hasked, h⟩ := Outcome.bind_eq_ok_iff.1 h
    split at h
    · rename_i hyes
      cases h
      rw [hyes] at hasked
      exact ⟨List.mem_cons_self, hasked⟩
    · obtain ⟨hmem, hyes⟩ := ih h
      exact ⟨List.mem_cons_of_mem q' hmem, hyes⟩

/-- Only questions for customers are asked, and none that is answered outside the conversation. -/
theorem forCustomer_of_shouldAsk {stage : Stage} {q : Question}
    (h : s.shouldAsk stage q = .ok true) :
    q.isForCustomer = true ∧ q.isOutOfBand = .ok false := by
  unfold shouldAsk at h
  cases hcustomer : q.isForCustomer with
  | false =>
    rw [hcustomer] at h
    cases h
  | true =>
    rw [hcustomer] at h
    obtain ⟨gated, -, h⟩ := Outcome.bind_eq_ok_iff.1 h
    split at h
    · cases h
    · obtain ⟨outOfBand, hband, h⟩ := Outcome.bind_eq_ok_iff.1 h
      cases outOfBand with
      | true => cases h
      | false => exact ⟨rfl, hband⟩

/-- Of the missing questions the same holds. -/
theorem forCustomer_of_isMissing {stage : Stage} {q : Question}
    (h : s.isMissing stage q = .ok true) :
    q.isForCustomer = true ∧ q.isOutOfBand = .ok false := by
  unfold isMissing at h
  cases hcustomer : q.isForCustomer with
  | false =>
    rw [hcustomer] at h
    cases h
  | true =>
    rw [hcustomer] at h
    obtain ⟨outOfBand, hband, h⟩ := Outcome.bind_eq_ok_iff.1 h
    cases outOfBand with
    | true => cases h
    | false => exact ⟨rfl, hband⟩

theorem firstIn?_eq_some {channel : Json} {stages : List Stage} {nq : NextQuestion}
    (h : s.firstIn? c channel stages = .ok (some nq)) :
    ∃ stage ∈ stages, ∃ q ∈ c.questionsOf stage, s.shouldAsk stage q = .ok true ∧
      nq = present stage channel q := by
  induction stages with
  | nil => cases h
  | cons stage rest ih =>
    unfold firstIn? at h
    split at h
    · obtain ⟨found, hfound, h⟩ := Outcome.bind_eq_ok_iff.1 h
      cases found with
      | some q =>
        cases h
        obtain ⟨hmem, hasked⟩ := mem_of_firstOf? hfound
        exact ⟨stage, List.mem_cons_self, q, hmem, hasked, rfl⟩
      | none =>
        obtain ⟨stage', hstage, hselected⟩ := ih h
        exact ⟨stage', List.mem_cons_of_mem stage hstage, hselected⟩
    · obtain ⟨stage', hstage, hselected⟩ := ih h
      exact ⟨stage', List.mem_cons_of_mem stage hstage, hselected⟩

/-- The next question is asked in one of the stages that were looked at. -/
theorem selected_of_nextQuestion? {keys : Option (List Json)} {channel : Json} {nq : NextQuestion}
    (h : s.nextQuestion? c keys channel = .ok (some nq)) :
    ∃ stage ∈ c.stagesIn keys, ∃ q ∈ c.questionsOf stage, s.shouldAsk stage q = .ok true ∧
      nq = present stage channel q := by
  cases keys with
  | none => exact firstIn?_eq_some h
  | some keys =>
    obtain ⟨stages, hstages, h⟩ := Outcome.bind_eq_ok_iff.1 h
    obtain ⟨keys', hkeys, hstages⟩ := Outcome.bind_eq_ok_iff.1 hstages
    cases hstages
    rw [Json.eq_of_mapM_asKey hkeys] at h
    exact firstIn?_eq_some h

/-- The next question may be asked, and it is shown as it is. -/
theorem asks_of_nextQuestion? {keys : Option (List Json)} {channel : Json} {nq : NextQuestion}
    (h : s.nextQuestion? c keys channel = .ok (some nq)) :
    ∃ stage q, c.Asks q ∧ nq = present stage channel q := by
  obtain ⟨stage, -, q, hmem, hasked, hq⟩ := selected_of_nextQuestion? h
  obtain ⟨forCustomer, inBand⟩ := forCustomer_of_shouldAsk hasked
  exact ⟨stage, q, ⟨Catalog.holds_of_mem_questionsOf hmem, forCustomer, inBand⟩, hq⟩

/-- The next question is one of the catalog, as it is shown. -/
theorem nextQuestion?_eq_some {keys : Option (List Json)} {channel : Json} {nq : NextQuestion}
    (h : s.nextQuestion? c keys channel = .ok (some nq)) :
    ∃ stage q, c.Holds q ∧ nq = present stage channel q := by
  obtain ⟨stage, q, asks, hq⟩ := asks_of_nextQuestion? h
  exact ⟨stage, q, asks.holds, hq⟩

theorem firstIn?_channel {channel : Json} {stages : List Stage} {found : Option NextQuestion}
    (h : s.firstIn? c channel stages = .ok found) (channel' : Json) :
    ∃ found', s.firstIn? c channel' stages = .ok found' ∧
      found'.map (·.qid) = found.map (·.qid) := by
  induction stages with
  | nil =>
    cases h
    exact ⟨none, rfl, rfl⟩
  | cons stage rest ih =>
    unfold firstIn? at h ⊢
    split at h
    · rename_i hholds
      obtain ⟨q?, hq, h⟩ := Outcome.bind_eq_ok_iff.1 h
      rw [if_pos hholds, hq, Outcome.ok_bind]
      cases q? with
      | some q =>
        cases h
        exact ⟨some (present stage channel' q), rfl, rfl⟩
      | none => exact ih h
    · rename_i hholds
      rw [if_neg hholds]
      exact ih h

/-- On every channel the same question is selected. -/
theorem nextQuestion?_channel {keys : Option (List Json)} {channel : Json}
    {found : Option NextQuestion} (h : s.nextQuestion? c keys channel = .ok found)
    (channel' : Json) :
    ∃ found', s.nextQuestion? c keys channel' = .ok found' ∧
      found'.map (·.qid) = found.map (·.qid) := by
  cases keys with
  | none => exact firstIn?_channel h channel'
  | some keys =>
    obtain ⟨stages, hstages, h⟩ := Outcome.bind_eq_ok_iff.1 h
    obtain ⟨found', hfound', hqid⟩ := firstIn?_channel h channel'
    exact ⟨found', Outcome.bind_eq_ok_iff.2 ⟨stages, hstages, hfound'⟩, hqid⟩

theorem mem_missingIn {stages : List Stage} {missing : List Question}
    (h : s.missingIn c stages = .ok missing) {q : Question} (hq : q ∈ missing) : c.Asks q := by
  induction stages generalizing missing with
  | nil =>
    cases h
    cases hq
  | cons stage rest ih =>
    unfold missingIn at h
    split at h
    · obtain ⟨here, hhere, h⟩ := Outcome.bind_eq_ok_iff.1 h
      obtain ⟨further, hfurther, h⟩ := Outcome.bind_eq_ok_iff.1 h
      cases h
      rcases List.mem_append.1 hq with hq | hq
      · obtain ⟨hmem, hmissing⟩ := Outcome.mem_of_filterM hhere hq
        obtain ⟨forCustomer, inBand⟩ := forCustomer_of_isMissing hmissing
        exact ⟨Catalog.holds_of_mem_questionsOf hmem, forCustomer, inBand⟩
      · exact ih hfurther hq
    · exact ih h hq

/-- A missing question may be asked. -/
theorem asks_of_missingQuestions {keys : List Json} {missing : List Question}
    (h : s.missingQuestions c keys = .ok missing) {q : Question} (hq : q ∈ missing) :
    c.Asks q := by
  obtain ⟨stages, -, h⟩ := Outcome.bind_eq_ok_iff.1 h
  exact mem_missingIn h hq

/-- A missing question is one of the catalog. -/
theorem mem_missingQuestions {keys : List Json} {missing : List Question}
    (h : s.missingQuestions c keys = .ok missing) {q : Question} (hq : q ∈ missing) :
    c.Holds q :=
  (asks_of_missingQuestions h hq).holds

end State

end Questionnaire
