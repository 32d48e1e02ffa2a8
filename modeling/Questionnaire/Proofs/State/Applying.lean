import Questionnaire.Proofs.State.Stored
import Questionnaire.State.Application

/-!
# Applying answers and rules

What is applied to a state comes down to three steps: a value is written, the document is written,
and computed variables and modules are brought up to date.

## Main Definitions

* `State.Produced` - the states that answers and rules lead to

## Main Statements

* `State.applyValue_spec`, `State.applyAnswer_spec` - what an answer has done
* `State.applyDerived_cases` - what a pass over the derived rules has done
* `State.Produced.exists_computed` - the values of a state that was produced were computed
-/

namespace Questionnaire.State

variable {c : Catalog} {s s' : State} {q : Question} {v : Json} {applied : Applied}

/-- What a given value has done. -/
theorem applyValue_spec (h : s.applyValue c q v = .ok (s', applied)) :
    q.fieldKey.isKey = true ∧ applied = ⟨q.qid, q.fieldKey, v⟩ ∧
      ∃ document, writeDocument s.document q.jsonPath v = .ok document ∧
        refresh c { s.write q.fieldKey v with document := document } = .ok s' := by
  obtain ⟨key, hkey, h⟩ := Outcome.bind_eq_ok_iff.1 h
  obtain ⟨isKey, rfl⟩ := (Json.asKey_eq_ok_iff _ _).1 hkey
  obtain ⟨document, hdocument, h⟩ := Outcome.bind_eq_ok_iff.1 h
  obtain ⟨s₁, hrefresh, h⟩ := Outcome.bind_eq_ok_iff.1 h
  cases h
  exact ⟨isKey, rfl, document, hdocument, hrefresh⟩

/-- An answer that was taken was read as a value, which was applied. -/
theorem applyAnswer_spec {answer : String}
    (h : s.applyAnswer c q answer = .ok (.ok (s', applied))) :
    ∃ v, Answer.read q answer c.messages = .ok (.ok v) ∧
      s.applyValue c q v = .ok (s', applied) := by
  obtain ⟨read, hread, h⟩ := Outcome.bind_eq_ok_iff.1 h
  cases read with
  | error rejection => cases h
  | ok v =>
    obtain ⟨result, hresult, h⟩ := Outcome.bind_eq_ok_iff.1 h
    cases h
    exact ⟨v, hread, hresult⟩

/-- A pass over the derived rules has written nothing, or what it has written was brought up to
date. -/
theorem applyDerived_cases {updates : Fields} (h : s.applyDerived c = .ok (s', updates)) :
    ∃ t, applyRules c c.derivedRules s [] = .ok (t, updates) ∧
      ((updates = [] ∧ s' = s) ∨ (updates ≠ [] ∧ refresh c t = .ok s')) := by
  obtain ⟨⟨t, written⟩, hrules, h⟩ := Outcome.bind_eq_ok_iff.1 h
  dsimp only at h
  split at h
  · next hempty =>
    cases h
    exact ⟨t, List.isEmpty_iff.1 hempty ▸ hrules, .inl ⟨rfl, rfl⟩⟩
  · next hwritten =>
    obtain ⟨t', hrefresh, h⟩ := Outcome.bind_eq_ok_iff.1 h
    split at h
    · cases h
      exact ⟨t, hrules, .inr ⟨fun hnil => hwritten (List.isEmpty_iff.2 hnil), hrefresh⟩⟩
    · cases h

/-- The states that answers and rules lead to. -/
inductive Produced (c : Catalog) : State → Prop where
  /-- The state of stored values. -/
  | stored {stored : Fields} {document : Option Json} {s : State}
    (h : ofFields c stored document = .ok s) : Produced c s
  /-- A value was given for a question. -/
  | value {s s' : State} {q : Question} {v : Json} {applied : Applied} (before : Produced c s)
    (h : s.applyValue c q v = .ok (s', applied)) : Produced c s'
  /-- A question was answered. -/
  | answer {s s' : State} {q : Question} {answer : String} {applied : Applied}
    (before : Produced c s) (h : s.applyAnswer c q answer = .ok (.ok (s', applied))) : Produced c s'
  /-- Rules were applied. -/
  | derived {s s' : State} {updates : Fields} (before : Produced c s)
    (h : s.applyDerived c = .ok (s', updates)) : Produced c s'

/-- The values of a state that was produced were computed. -/
theorem Produced.exists_computed (produced : Produced c s) :
    ∃ values, compute values c.computedVars = .ok s.values := by
  induction produced with
  | stored h => exact ⟨_, (ofFields_spec h).2.1⟩
  | value _ h =>
    obtain ⟨-, -, document, -, hrefresh⟩ := applyValue_spec h
    exact ⟨_, (refresh_spec hrefresh).1⟩
  | answer _ h =>
    obtain ⟨v, -, hvalue⟩ := applyAnswer_spec h
    obtain ⟨-, -, document, -, hrefresh⟩ := applyValue_spec hvalue
    exact ⟨_, (refresh_spec hrefresh).1⟩
  | derived _ h ih =>
    obtain ⟨t, -, ⟨-, rfl⟩ | ⟨-, hrefresh⟩⟩ := applyDerived_cases h
    · exact ih
    · exact ⟨_, (refresh_spec hrefresh).1⟩

end Questionnaire.State
