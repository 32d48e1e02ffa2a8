import Questionnaire.Bookkeeping
import Questionnaire.Catalog.Loading
import Questionnaire.Proofs.Condition.Names
import Questionnaire.Proofs.State.Computed
import Questionnaire.Proofs.State.Selection

/-!
# States that agree

From states that agree on the fields that a catalog looks at, it selects the same question.  So it
does from states that nothing but bookkeeping tells apart, when it keeps clear of the bookkeeping
fields.

## Main Definitions

* `Bookkeeping.owns` - a field that the conversation writes on its own account
* `Catalog.LooksOnlyAt` - a catalog that looks only at some fields
* `Catalog.KeepsClear` - a catalog that leaves the bookkeeping fields alone
* `State.AgreesOn` - states that agree on some fields
* `State.Agrees` - states that only bookkeeping tells apart

## Main Statements

* `State.AgreesOn.nextQuestion?` - states that agree where a catalog looks select the same question
* `State.Agrees.nextQuestion?` - so do states that only bookkeeping tells apart
-/

namespace Questionnaire

namespace Bookkeeping

/-- The fields that the conversation writes on its own account. -/
def all : List Json :=
  [document, transient, attachments, attachmentCount, handoffRequired, handoffReasons, complete,
    completed, draftQuestion, draftRows]

/-- A field that the conversation writes on its own account. -/
def owns (key : Json) : Bool := all.contains key

theorem owns_iff (key : Json) : owns key = true ↔ key ∈ all := by
  simp only [owns, all, document, transient, attachments, attachmentCount, handoffRequired,
    handoffReasons, complete, completed, draftQuestion, draftRows, List.contains_cons,
    List.contains_nil, Bool.or_eq_true, Json.beq_str, List.mem_cons, List.not_mem_nil,
    Bool.false_eq_true]

theorem exists_str_of_owns {key : Json} (h : owns key = true) : ∃ name, key = .str name := by
  have hmem := (owns_iff key).1 h
  simp only [all, List.mem_cons, List.not_mem_nil, or_false] at hmem
  rcases hmem with rfl | rfl | rfl | rfl | rfl | rfl | rfl | rfl | rfl | rfl <;> exact ⟨_, rfl⟩

theorem isKey_of_owns {key : Json} (h : owns key = true) : key.isKey = true := by
  obtain ⟨name, rfl⟩ := exists_str_of_owns h
  rfl

/-- A key that a bookkeeping field equals is that field. -/
theorem eq_of_beq {key key' : Json} (howns : owns key = true) (h : (key == key') = true) :
    key' = key := by
  obtain ⟨name, rfl⟩ := exists_str_of_owns howns
  exact Json.eq_of_str_beq h

/-- A key that equals a bookkeeping field is one. -/
theorem owns_of_beq {key key' : Json} (h : (key == key') = true) (howns : owns key' = true) :
    owns key = true := by
  obtain ⟨name, rfl⟩ := exists_str_of_owns howns
  rw [(Json.beq_str key name).1 h]
  exact howns

/-- No bookkeeping field equals a key that is none. -/
theorem ne_of_owns {key key' : Json} (hfree : owns key = false) (howns : owns key' = true) :
    (key' == key) = false := by
  refine Bool.eq_false_iff.2 fun hbeq => ?_
  rw [(Json.isName_of_isKey (isKey_of_owns howns)).symm] at hbeq
  rw [owns_of_beq hbeq howns] at hfree
  cases hfree

end Bookkeeping

namespace Catalog

open Bookkeeping (owns)

/-- A catalog looks only at some fields: at those in its conditions, and at those of its
questions. -/
structure LooksOnlyAt (c : Catalog) (K : Json → Prop) : Prop where
  /-- No condition looks at another field. -/
  conditions : ∀ p ∈ c.conditions, ∀ name ∈ Condition.reads p.2, K (.str name)
  /-- No answer belongs to another field. -/
  fieldKeys : ∀ e ∈ c.questions, K e.2.fieldKey

/-- A catalog leaves the bookkeeping fields alone, derives no absent value, and computes nothing
from what it has computed. -/
structure KeepsClear (c : Catalog) : Prop where
  /-- No condition looks at bookkeeping. -/
  conditions : ∀ p ∈ c.conditions, ∀ name ∈ Condition.reads p.2, owns (.str name) = false
  /-- No answer is bookkeeping. -/
  fieldKeys : ∀ e ∈ c.questions, owns e.2.fieldKey = false
  /-- No default is bookkeeping. -/
  defaults : ∀ d ∈ c.defaults, owns d.1 = false
  /-- No derived value is bookkeeping. -/
  targets : ∀ r ∈ c.derivedRules, owns r.target = false
  /-- Derived values are there. -/
  given : ∀ r ∈ c.derivedRules, (r.value == .null) = false
  /-- No computed value is bookkeeping. -/
  computed : ∀ v ∈ c.computedVars, owns v.target = false
  /-- Nothing is computed from bookkeeping. -/
  reads : ∀ v ∈ c.computedVars, ∀ key ∈ v.reads, owns key = false
  /-- Nothing is computed from what was computed. -/
  apart : ∀ v ∈ c.computedVars, ∀ key ∈ v.reads, ∀ u ∈ c.computedVars, (u.target == key) = false

instance (c : Catalog) : Decidable c.KeepsClear :=
  decidable_of_iff
    ((∀ p ∈ c.conditions, ∀ name ∈ Condition.reads p.2, owns (.str name) = false) ∧
      (∀ e ∈ c.questions, owns e.2.fieldKey = false) ∧
      (∀ d ∈ c.defaults, owns d.1 = false) ∧
      (∀ r ∈ c.derivedRules, owns r.target = false) ∧
      (∀ r ∈ c.derivedRules, (r.value == .null) = false) ∧
      (∀ v ∈ c.computedVars, owns v.target = false) ∧
      (∀ v ∈ c.computedVars, ∀ key ∈ v.reads, owns key = false) ∧
      ∀ v ∈ c.computedVars, ∀ key ∈ v.reads, ∀ u ∈ c.computedVars, (u.target == key) = false)
    ⟨fun ⟨h₁, h₂, h₃, h₄, h₅, h₆, h₇, h₈⟩ => ⟨h₁, h₂, h₃, h₄, h₅, h₆, h₇, h₈⟩,
      fun h => ⟨h.1, h.2, h.3, h.4, h.5, h.6, h.7, h.8⟩⟩

namespace LooksOnlyAt

variable {c : Catalog} {K : Json → Prop}

theorem stage (looks : c.LooksOnlyAt K) {stage : Stage} (h : stage ∈ c.stages) :
    ∀ name ∈ Condition.reads stage.askIf, K (.str name) := by
  refine looks.conditions ("stage " ++ stage.key.display ++ " ask_if", stage.askIf) ?_
  simp only [Catalog.conditions, List.mem_append, List.mem_map]
  exact .inl (.inl (.inl (.inl (.inl (.inl (.inl ⟨stage, h, rfl⟩))))))

theorem module_ (looks : c.LooksOnlyAt K) {m : CoverageModule} (h : m ∈ c.modules) :
    ∀ name ∈ Condition.reads m.enableIf, K (.str name) := by
  refine looks.conditions ("module " ++ m.key.display ++ " enable_if", m.enableIf) ?_
  simp only [Catalog.conditions, List.mem_append, List.mem_map]
  exact .inl (.inl (.inl (.inl (.inl (.inr ⟨m, h, rfl⟩)))))

theorem askIf (looks : c.LooksOnlyAt K) {q : Question} (h : c.Holds q) :
    ∀ name ∈ Condition.reads q.askIf, K (.str name) := by
  obtain ⟨e, he, rfl⟩ := h
  refine looks.conditions ("question " ++ e.2.qid.display ++ " ask_if", e.2.askIf) ?_
  simp only [Catalog.conditions, List.mem_append, List.mem_flatMap]
  exact .inl (.inl (.inl (.inl (.inl (.inl (.inr ⟨e, he, List.mem_cons_self⟩))))))

theorem requiredIf (looks : c.LooksOnlyAt K) {q : Question} (h : c.Holds q) :
    ∀ name ∈ Condition.reads q.requiredIf, K (.str name) := by
  obtain ⟨e, he, rfl⟩ := h
  refine looks.conditions ("question " ++ e.2.qid.display ++ " required_if", e.2.requiredIf) ?_
  simp only [Catalog.conditions, List.mem_append, List.mem_flatMap]
  exact .inl (.inl (.inl (.inl (.inl (.inl (.inr ⟨e, he, by simp⟩))))))

theorem fieldKey (looks : c.LooksOnlyAt K) {q : Question} (h : c.Holds q) : K q.fieldKey := by
  obtain ⟨e, he, rfl⟩ := h
  exact looks.fieldKeys e he

end LooksOnlyAt

theorem KeepsClear.looks {c : Catalog} (clear : c.KeepsClear) :
    c.LooksOnlyAt fun key => owns key = false :=
  ⟨clear.conditions, clear.fieldKeys⟩

end Catalog

namespace State

/-- Two states have the same values of some fields, of which the same are provisional, and the same
enabled modules. -/
structure AgreesOn (K : Json → Prop) (s s' : State) : Prop where
  /-- The same values. -/
  values : ∀ key, K key → Assoc.valueAt? key s.values = Assoc.valueAt? key s'.values
  /-- The same provisional fields. -/
  defaulted : ∀ key, K key → (s.statusOf key = .defaulted ↔ s'.statusOf key = .defaulted)
  /-- The same enabled modules. -/
  enabled : s.enabled = s'.enabled

namespace AgreesOn

variable {c : Catalog} {K : Json → Prop} {s s' : State}

theorem holds (agrees : AgreesOn K s s') {condition : Json}
    (looks : ∀ name ∈ Condition.reads condition, K (.str name)) :
    s.holds condition = s'.holds condition :=
  Condition.holds_congr fun name hname => agrees.values _ (looks name hname)

theorem isGatedOut (agrees : AgreesOn K s s') (stage : Stage) (q : Question) :
    s.isGatedOut stage q = s'.isGatedOut stage q := by
  unfold State.isGatedOut
  rw [agrees.enabled]

theorem isSettled (agrees : AgreesOn K s s') {q : Question} (looks : K q.fieldKey) :
    s.isSettled q = s'.isSettled q := by
  unfold State.isSettled
  cases hkey : q.fieldKey.asKey with
  | error e => rfl
  | ok key =>
    obtain ⟨-, rfl⟩ := (Json.asKey_eq_ok_iff _ _).1 hkey
    -- other statuses may differ, but only being provisional is asked for
    have hstatus : (s.statusOf q.fieldKey != .defaulted) =
        (s'.statusOf q.fieldKey != .defaulted) :=
      Bool.eq_iff_iff.2 (by simpa using not_congr (agrees.defaulted q.fieldKey looks))
    have hvalue : s.valueOf q.fieldKey = s'.valueOf q.fieldKey := by
      rw [valueOf, valueOf, agrees.values q.fieldKey looks]
    rw [Outcome.ok_bind, Outcome.ok_bind, hstatus, hvalue]

theorem shouldAsk (agrees : AgreesOn K s s') (looks : c.LooksOnlyAt K) (stage : Stage)
    {q : Question} (hq : c.Holds q) : s.shouldAsk stage q = s'.shouldAsk stage q := by
  unfold State.shouldAsk
  rw [agrees.isGatedOut, agrees.isSettled (looks.fieldKey hq), agrees.holds (looks.askIf hq),
    agrees.holds (looks.requiredIf hq)]

theorem firstOf? (agrees : AgreesOn K s s') (looks : c.LooksOnlyAt K) (stage : Stage)
    {questions : List Question} (hold : ∀ q ∈ questions, c.Holds q) :
    s.firstOf? stage questions = s'.firstOf? stage questions := by
  induction questions with
  | nil => rfl
  | cons q rest ih =>
    rw [State.firstOf?, State.firstOf?, agrees.shouldAsk looks stage (hold q List.mem_cons_self),
      ih fun q' hq' => hold q' (List.mem_cons_of_mem q hq')]

theorem firstIn? (agrees : AgreesOn K s s') (looks : c.LooksOnlyAt K) (channel : Json)
    {stages : List Stage} (hstages : ∀ stage ∈ stages, stage ∈ c.stages) :
    s.firstIn? c channel stages = s'.firstIn? c channel stages := by
  induction stages with
  | nil => rfl
  | cons stage rest ih =>
    have hstage := hstages stage List.mem_cons_self
    have hfirst : s.firstOf? stage (c.questionsOf stage) =
        s'.firstOf? stage (c.questionsOf stage) :=
      agrees.firstOf? looks stage fun q hq => Catalog.holds_of_mem_questionsOf hq
    rw [State.firstIn?, State.firstIn?, agrees.holds (looks.stage hstage), hfirst,
      ih fun stage' h => hstages stage' (List.mem_cons_of_mem stage h)]

/-- States that agree on the fields that a catalog looks at select the same question. -/
theorem nextQuestion? (agrees : AgreesOn K s s') (looks : c.LooksOnlyAt K)
    (keys : Option (List Json)) (channel : Json) :
    s.nextQuestion? c keys channel = s'.nextQuestion? c keys channel := by
  cases keys with
  | none => exact agrees.firstIn? looks channel fun stage h => h
  | some keys =>
    unfold State.nextQuestion?
    cases hstages : stagesWithin c keys with
    | error e => simp only [hstages, Outcome.error_bind]
    | ok stages =>
      simp only [hstages, Outcome.ok_bind]
      obtain ⟨found, -, hfound⟩ := Outcome.bind_eq_ok_iff.1 hstages
      cases hfound
      exact agrees.firstIn? looks channel fun stage h => (List.mem_filter.1 h).1

end AgreesOn

/-- Two states have the same values but for bookkeeping, the same provisional fields, the same
enabled modules and the same document. -/
structure Agrees (s s' : State) : Prop where
  /-- The same values but for bookkeeping. -/
  values : ∀ key, Bookkeeping.owns key = false →
    Assoc.valueAt? key s.values = Assoc.valueAt? key s'.values
  /-- The same provisional fields. -/
  defaulted : ∀ key, s.statusOf key = .defaulted ↔ s'.statusOf key = .defaulted
  /-- The same enabled modules. -/
  enabled : s.enabled = s'.enabled
  /-- The same document. -/
  document : s.document = s'.document

/-- States that only bookkeeping tells apart select the same question. -/
theorem Agrees.nextQuestion? {c : Catalog} {s s' : State} (agrees : s.Agrees s')
    (clear : c.KeepsClear) (keys : Option (List Json)) (channel : Json) :
    s.nextQuestion? c keys channel = s'.nextQuestion? c keys channel :=
  AgreesOn.nextQuestion? ⟨agrees.values, fun key _ => agrees.defaulted key, agrees.enabled⟩
    clear.looks keys channel

end State

end Questionnaire
