import Mathlib.Data.List.Pairwise
import Questionnaire.Proofs.Answer.Reading
import Questionnaire.Proofs.State.Rederiving
import Questionnaire.Proofs.State.Selection

/-!
# Running out of questions

An answer may enable modules and make conditions hold, so the number of questions that would be
asked may grow.  What does not grow is the set of fields that are open: they have no value, or only
a default.  A field that was given a value keeps one, whatever computed variables and derived rules
write into it, and the field of the question that was asked is open before the answer and not
behind it.  So every round of selecting, answering and deriving uses up a field.

## Main Definitions

* `State.isOpen` - a field has no value, or only a default
* `Catalog.customerFields` - the fields of the questions for customers in some stages
* `State.openFields` - those of them that are open
* `State.Round`, `State.Rounds` - a question is selected and answered, and rules are applied

## Main Statements

* `State.isOpen_of_round` - no round opens a field
* `State.exists_closed_of_round` - every round closes one
* `State.openFields_rounds` - fewer fields are open behind a round, so rounds come to an end

## Design Notes

The rules have to derive values that count as given.  One that derives a blank text or an empty list
would open its target again.
-/

namespace Questionnaire

/-- Every key is kept among the distinct ones, or an equal key is kept for it. -/
theorem Json.exists_mem_pwFilter {keys : List Json} {key : Json} (hkey : key ∈ keys)
    (isKey : key.isKey = true) :
    ∃ k ∈ keys.pwFilter fun a b => (a == b) = false, (key == k) = true := by
  induction keys with
  | nil => cases hkey
  | cons k rest ih =>
    by_cases hnew : ∀ b ∈ rest.pwFilter fun a b => (a == b) = false, (k == b) = false
    · rw [List.pwFilter_cons_of_pos hnew]
      rcases List.mem_cons.1 hkey with rfl | hrest
      · exact ⟨key, List.mem_cons_self, (Json.isName_of_isKey isKey).self⟩
      · obtain ⟨k', hk', hequal⟩ := ih hrest
        exact ⟨k', List.mem_cons_of_mem k hk', hequal⟩
    · rw [List.pwFilter_cons_of_neg hnew]
      rcases List.mem_cons.1 hkey with rfl | hrest
      · obtain ⟨k', hnew⟩ := not_forall.1 hnew
        obtain ⟨hk', hequal⟩ := Classical.not_imp.1 hnew
        exact ⟨k', hk', Bool.eq_true_of_not_eq_false hequal⟩
      · exact ih hrest

namespace Catalog

/-- The fields of the questions for customers in some stages, each once.  What is no scalar names no
field. -/
def customerFields (c : Catalog) (stages : List Stage) : List Json :=
  let asked := (stages.flatMap c.questionsOf).filter (·.isForCustomer)
  ((asked.map (·.fieldKey)).filter (·.isKey)).pwFilter fun a b => (a == b) = false

/-- No field is counted twice. -/
theorem customerFields_distinct (c : Catalog) (stages : List Stage) :
    (c.customerFields stages).Pairwise fun a b => (a == b) = false :=
  List.pairwise_pwFilter _

/-- The field of a question for customers is among the fields, or an equal one is. -/
theorem exists_mem_customerFields {c : Catalog} {stages : List Stage} {stage : Stage} {q : Question}
    (hstage : stage ∈ stages) (hq : q ∈ c.questionsOf stage) (forCustomer : q.isForCustomer = true)
    (isKey : q.fieldKey.isKey = true) :
    ∃ key ∈ c.customerFields stages, (q.fieldKey == key) = true := by
  refine Json.exists_mem_pwFilter (List.mem_filter.2 ⟨List.mem_map_of_mem ?_, isKey⟩) isKey
  exact List.mem_filter.2 ⟨List.mem_flatMap.2 ⟨stage, hstage, hq⟩, forCustomer⟩

/-- In an accepted catalog a question of a stage is found under its identifier. -/
theorem question?_of_mem_questionsOf {c : Catalog} (accepted : c.Accepted) {stage : Stage}
    {q : Question} (hq : q ∈ c.questionsOf stage) : c.question? q.qid = some q := by
  obtain ⟨e, he, rfl⟩ := holds_of_mem_questionsOf hq
  have filed := filedBy_questions accepted
  rw [filed.own e he]
  exact filed.valueAt?_of_mem he

end Catalog

namespace State

variable {c : Catalog} {s s' : State} {q : Question} {key v : Json} {applied : Applied}

/-! ## Open fields -/

/-- A field is open when it has no value, or only a default. -/
def isOpen (s : State) (key : Json) : Bool :=
  s.statusOf key == .defaulted || !(s.valueOf key).isAnswered

theorem isOpen_eq_false_iff : s.isOpen key = false ↔
    s.statusOf key ≠ .defaulted ∧ (s.valueOf key).isAnswered = true := by
  simp [isOpen]

/-- The fields of questions for customers in some stages that are open. -/
def openFields (c : Catalog) (s : State) (stages : List Stage) : List Json :=
  (c.customerFields stages).filter s.isOpen

theorem isOpen_congr {k : Json} (name : Assoc.IsName key) (h : (k == key) = true) (s : State) :
    s.isOpen k = s.isOpen key := by
  rw [isOpen, isOpen, statusOf, statusOf, valueOf, valueOf, Assoc.valueAt?_congr name h,
    Assoc.valueAt?_congr name h]

/-- The field of a question that is asked is open. -/
theorem isOpen_of_shouldAsk {stage : Stage} (h : s.shouldAsk stage q = .ok true) :
    q.fieldKey.isKey = true ∧ s.isOpen q.fieldKey = true := by
  unfold shouldAsk at h
  split at h
  · cases h
  · obtain ⟨gated, -, h⟩ := Outcome.bind_eq_ok_iff.1 h
    split at h
    · cases h
    · obtain ⟨outOfBand, -, h⟩ := Outcome.bind_eq_ok_iff.1 h
      split at h
      · cases h
      · obtain ⟨settled, hsettled, h⟩ := Outcome.bind_eq_ok_iff.1 h
        obtain ⟨k, hk, hsettled⟩ := Outcome.bind_eq_ok_iff.1 hsettled
        obtain ⟨isKey, rfl⟩ := (Json.asKey_eq_ok_iff _ _).1 hk
        cases hsettled
        refine ⟨isKey, ?_⟩
        split at h
        · cases h
        · next hunsettled =>
          refine Bool.eq_true_of_not_eq_false fun hclosed => hunsettled ?_
          obtain ⟨given, answered⟩ := isOpen_eq_false_iff.1 hclosed
          rw [answered, Bool.and_true]
          exact bne_iff_ne.2 given

/-! ## Closed fields stay closed -/

/-- A field that was written with a value that counts as given is closed, and closed ones stay
so. -/
theorem isOpen_write {k : Json} (isKey : k.isKey = true) (filled : v.isAnswered = true)
    (h : s.isOpen key = false ∨ (k == key) = true) : (s.write k v).isOpen key = false := by
  have name := Json.isName_of_isKey isKey
  rw [isOpen_eq_false_iff, statusOf, valueOf, write, Assoc.valueAt?_put name,
    Assoc.valueAt?_put name]
  split
  · exact ⟨by decide, filled⟩
  · next hother => exact isOpen_eq_false_iff.1 (h.resolve_right hother)

/-- Bringing a state up to date opens no field. -/
theorem isOpen_refresh (isKey : ∀ u ∈ c.computedVars, u.target.isKey = true)
    (h : refresh c s = .ok s') (closed : s.isOpen key = false) : s'.isOpen key = false := by
  obtain ⟨hvalues, -, -, hstatus⟩ := refresh_spec h
  obtain ⟨given, answered⟩ := isOpen_eq_false_iff.1 closed
  rw [isOpen_eq_false_iff, statusOf, hstatus]
  refine ⟨given, ?_⟩
  -- computed variables are numbers, so what has a value keeps one
  exact holds_compute (P := fun value => (value.getD .null).isAnswered = true)
    Json.isAnswered_ofWhole isKey hvalues (.inl answered)

/-- An answer closes the field of its question. -/
theorem isOpen_applyValue (isKey : ∀ u ∈ c.computedVars, u.target.isKey = true)
    (filled : v.isAnswered = true) (h : s.applyValue c q v = .ok (s', applied))
    (closed : s.isOpen key = false ∨ (q.fieldKey == key) = true) : s'.isOpen key = false := by
  obtain ⟨hkey, -, document, -, hrefresh⟩ := applyValue_spec h
  exact isOpen_refresh isKey hrefresh (isOpen_write hkey filled closed)

/-- Rules that derive values which count as given open no field. -/
theorem isOpen_applyDerived (isKey : ∀ u ∈ c.computedVars, u.target.isKey = true)
    (filled : ∀ r ∈ c.derivedRules, r.value.isAnswered = true) {updates : Fields}
    (h : s.applyDerived c = .ok (s', updates)) (closed : s.isOpen key = false) :
    s'.isOpen key = false := by
  obtain ⟨t, hrules, ⟨-, rfl⟩ | ⟨-, hrefresh⟩⟩ := applyDerived_cases h
  · exact closed
  · refine isOpen_refresh isKey hrefresh (isOpen_eq_false_iff.2 ?_)
    rw [statusOf, valueOf]
    rcases applyRules_frame hrules key with ⟨hvalue, hstatus⟩ | ⟨r, hr, -, hvalue, hstatus⟩
    · rw [hvalue, hstatus]
      exact isOpen_eq_false_iff.1 closed
    · rw [hvalue, hstatus]
      exact ⟨by decide, filled r hr⟩

/-! ## Rounds -/

/-- A question is selected from some stages and answered, and the derived rules are applied. -/
inductive Round (c : Catalog) (keys : Option (List Json)) (s s' : State) : Prop where
  /-- The answer is a text that is read. -/
  | answer {channel : Json} {nq : NextQuestion} {q : Question} {text : String} {s₁ : State}
    {applied : Applied} {updates : Fields}
    (selected : s.nextQuestion? c keys channel = .ok (some nq))
    (found : c.question? nq.qid = some q)
    (taken : s.applyAnswer c q text = .ok (.ok (s₁, applied)))
    (derived : s₁.applyDerived c = .ok (s', updates)) : Round c keys s s'
  /-- The answer is a value that counts as given, such as the rows of a table. -/
  | value {channel : Json} {nq : NextQuestion} {q : Question} {v : Json} {s₁ : State}
    {applied : Applied} {updates : Fields}
    (selected : s.nextQuestion? c keys channel = .ok (some nq))
    (found : c.question? nq.qid = some q) (filled : v.isAnswered = true)
    (taken : s.applyValue c q v = .ok (s₁, applied))
    (derived : s₁.applyDerived c = .ok (s', updates)) : Round c keys s s'

/-- As many rounds, one after the other. -/
inductive Rounds (c : Catalog) (keys : Option (List Json)) : Nat → State → State → Prop where
  /-- No round. -/
  | none (s : State) : Rounds c keys 0 s s
  /-- One round before the others. -/
  | next {n : Nat} {s s₁ s' : State} (first : Round c keys s s₁) (others : Rounds c keys n s₁ s') :
    Rounds c keys (n + 1) s s'

variable {keys : Option (List Json)}

/-- In a round a value that counts as given is applied to a question that was asked. -/
theorem Round.exists_applyValue (accepted : c.Accepted) (round : Round c keys s s') :
    ∃ stage ∈ c.stagesIn keys, ∃ q ∈ c.questionsOf stage, s.shouldAsk stage q = .ok true ∧
      ∃ v s₁ applied updates, v.isAnswered = true ∧ s.applyValue c q v = .ok (s₁, applied) ∧
        s₁.applyDerived c = .ok (s', updates) := by
  -- the identifier leads back to the question that was selected
  have same {channel : Json} {nq : NextQuestion} {q : Question}
      (selected : s.nextQuestion? c keys channel = .ok (some nq))
      (found : c.question? nq.qid = some q) :
      ∃ stage ∈ c.stagesIn keys, q ∈ c.questionsOf stage ∧ s.shouldAsk stage q = .ok true := by
    obtain ⟨stage, hstage, q', hq', hasked, rfl⟩ := selected_of_nextQuestion? selected
    cases found.symm.trans (Catalog.question?_of_mem_questionsOf accepted hq')
    exact ⟨stage, hstage, hq', hasked⟩
  cases round with
  | answer selected found taken derived =>
    obtain ⟨stage, hstage, hq, hasked⟩ := same selected found
    obtain ⟨v, hread, hvalue⟩ := applyAnswer_spec taken
    obtain ⟨e, he, rfl⟩ := Catalog.holds_of_question? found
    have filled := Answer.isAnswered_of_read
      ((Catalog.filesQuestions_of_accepted accepted).options e he) hread
    exact ⟨stage, hstage, _, hq, hasked, v, _, _, _, filled, hvalue, derived⟩
  | value selected found filled taken derived =>
    obtain ⟨stage, hstage, hq, hasked⟩ := same selected found
    exact ⟨stage, hstage, _, hq, hasked, _, _, _, _, filled, taken, derived⟩

/-- No round opens a field. -/
theorem isOpen_of_round (accepted : c.Accepted) (usable : c.usable = .ok ())
    (filled : ∀ r ∈ c.derivedRules, r.value.isAnswered = true) (round : Round c keys s s')
    (closed : s.isOpen key = false) : s'.isOpen key = false := by
  have isKey := Catalog.isKey_of_usable usable
  obtain ⟨-, -, q, -, -, v, s₁, applied, updates, hv, hvalue, hderived⟩ :=
    round.exists_applyValue accepted
  exact isOpen_applyDerived isKey filled hderived (isOpen_applyValue isKey hv hvalue (.inl closed))

/-- Every round closes a field: that of the question that was asked. -/
theorem exists_closed_of_round (accepted : c.Accepted) (usable : c.usable = .ok ())
    (filled : ∀ r ∈ c.derivedRules, r.value.isAnswered = true) (round : Round c keys s s') :
    ∃ key ∈ s.openFields c (c.stagesIn keys), s'.isOpen key = false := by
  have isKey := Catalog.isKey_of_usable usable
  obtain ⟨stage, hstage, q, hq, hasked, v, s₁, applied, updates, hv, hvalue, hderived⟩ :=
    round.exists_applyValue accepted
  obtain ⟨hkey, hopen⟩ := isOpen_of_shouldAsk hasked
  have name := Json.isName_of_isKey hkey
  obtain ⟨key, hmem, hequal⟩ := Catalog.exists_mem_customerFields hstage hq
    (forCustomer_of_shouldAsk hasked).1 hkey
  have hclosed := isOpen_applyValue isKey hv hvalue (.inr hequal)
  refine ⟨key, List.mem_filter.2 ⟨hmem, ?_⟩, isOpen_applyDerived isKey filled hderived hclosed⟩
  rw [name.symm] at hequal
  rwa [isOpen_congr name hequal]

/-- Behind a round those fields are open that were open before it and were not closed. -/
theorem openFields_of_round (accepted : c.Accepted) (usable : c.usable = .ok ())
    (filled : ∀ r ∈ c.derivedRules, r.value.isAnswered = true) (round : Round c keys s s')
    (stages : List Stage) :
    s'.openFields c stages = (s.openFields c stages).filter s'.isOpen := by
  rw [openFields, openFields, List.filter_filter]
  refine List.filter_congr fun key _ => ?_
  cases hopen : s'.isOpen key with
  | false => rfl
  | true =>
    rw [Bool.true_and]
    refine (Bool.eq_true_of_not_eq_false fun closed => ?_).symm
    rw [isOpen_of_round accepted usable filled round closed] at hopen
    cases hopen

/-- Every round leaves one open field less. -/
theorem length_openFields_of_rounds (accepted : c.Accepted) (usable : c.usable = .ok ())
    (filled : ∀ r ∈ c.derivedRules, r.value.isAnswered = true) {n : Nat}
    (rounds : Rounds c keys n s s') :
    (s'.openFields c (c.stagesIn keys)).length + n ≤
      (s.openFields c (c.stagesIn keys)).length := by
  induction rounds with
  | none s => exact le_rfl
  | @next n s s₁ s' first others ih =>
    have hless : (s₁.openFields c (c.stagesIn keys)).length <
        (s.openFields c (c.stagesIn keys)).length := by
      obtain ⟨key, hkey, hclosed⟩ := exists_closed_of_round accepted usable filled first
      rw [openFields_of_round accepted usable filled first]
      refine List.length_filter_lt_length_iff_exists.2 ⟨key, hkey, ?_⟩
      rw [hclosed]
      exact Bool.false_ne_true
    omega

/-- In a catalog whose rules derive values that count as given, a round leaves fewer fields open
than it has found, so there are at most as many rounds as questions for customers have fields. -/
theorem openFields_rounds (accepted : c.Accepted) (usable : c.usable = .ok ())
    (filled : ∀ r ∈ c.derivedRules, r.value.isAnswered = true) (keys : Option (List Json)) :
    (∀ s s', Round c keys s s' →
      s'.openFields c (c.stagesIn keys) ⊆ s.openFields c (c.stagesIn keys) ∧
        ∃ key ∈ s.openFields c (c.stagesIn keys), key ∉ s'.openFields c (c.stagesIn keys)) ∧
      ∀ n s s', Rounds c keys n s s' → n ≤ (c.customerFields (c.stagesIn keys)).length := by
  refine ⟨fun s s' round => ⟨?_, ?_⟩, fun n s s' rounds => ?_⟩
  · rw [openFields_of_round accepted usable filled round]
    exact List.filter_subset_self _
  · obtain ⟨key, hkey, hclosed⟩ := exists_closed_of_round accepted usable filled round
    refine ⟨key, hkey, fun hopen => ?_⟩
    rw [(List.mem_filter.1 hopen).2] at hclosed
    cases hclosed
  · calc
      n ≤ (s.openFields c (c.stagesIn keys)).length :=
        Nat.le_of_add_left_le (length_openFields_of_rounds accepted usable filled rounds)
      _ ≤ (c.customerFields (c.stagesIn keys)).length := List.length_filter_le _ _

/-- An amount is asked for once, though a rank and a discount are derived from it. -/
theorem openFields_rounds_ranking : ∃ c s s', c.Accepted ∧ c.usable = .ok () ∧
    (∀ r ∈ c.derivedRules, r.value.isAnswered = true) ∧ Rounds c none 1 s s' ∧
    s'.openFields c (c.stagesIn none) ⊆ s.openFields c (c.stagesIn none) ∧
    1 ≤ (c.customerFields (c.stagesIn none)).length := by
  have evaluated : Outcome.Gives
      (Catalog.ofJson (asksAmount [ranking, discounting]) "catalog.json") fun e =>
        Outcome.Gives e.1.usable (fun _ => True) ∧
        (∀ r ∈ e.1.derivedRules, r.value.isAnswered = true) ∧
        Outcome.Gives (ofFields e.1 [] none) fun s =>
          Outcome.Gives (s.nextQuestion? e.1 none (.str "web")) fun found =>
            ∃ nq ∈ found, ∃ q ∈ e.1.question? nq.qid,
              Outcome.Gives (s.applyAnswer e.1 q "150") fun read => ∃ a ∈ read.toOption,
                Outcome.Gives (a.1.applyDerived e.1) fun d => d.2.length = 2 := by
    decide +kernel
  obtain ⟨⟨c, warnings⟩, hc, ⟨_, usable, -⟩, filled, s, -, found, hnext, nq, hfound, q, hq, read,
    hread, ⟨s₁, applied⟩, htaken, ⟨s', updates⟩, hderived, -⟩ := evaluated
  have accepted : c.Accepted := ⟨_, "catalog.json", warnings, hc⟩
  have round : Round c none s s' := by
    cases read with
    | error rejection => cases htaken
    | ok a =>
      cases htaken
      cases hfound
      exact .answer hnext hq hread hderived
  have rounds : Rounds c none 1 s s' := .next round (.none s')
  obtain ⟨shrinks, bounded⟩ := openFields_rounds accepted usable filled none
  exact ⟨c, s, s', accepted, usable, filled, rounds, (shrinks s s' round).1, bounded 1 s s' rounds⟩

end State

end Questionnaire
