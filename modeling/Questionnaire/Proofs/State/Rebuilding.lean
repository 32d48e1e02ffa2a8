import Questionnaire.Proofs.Answer.Reading
import Questionnaire.Proofs.State.Applying
import Questionnaire.Proofs.State.Filling
import Questionnaire.Proofs.State.Selection

/-!
# Building the document again

Answers are written into the document one by one, in the order in which they are given, and a later
one over an earlier one.  What they leave to store is enough to build the document again: in the
order of the catalog, it comes out the same but for the order of names.

Computed variables are not stored, so while they are brought up to date again, one that looks at a
later one finds nothing there.  It may then look at a value that it did not need before, and fail.

## Main Definitions

* `State.FromScratch` - the states that answers lead to from no stored values
* `State.Tracks` - a state has for every field its answer or its default, and a document of them
* `State.Refreshes` - computed variables and modules can be brought up to date
* `Catalog.ComputesInOrder` - computed variables look only at earlier ones

## Main Statements

* `State.tracks_of_fromScratch` - every state that answers lead to has that
* `State.Tracks.valueAt?_rebuilt` - the stored values are completed to the same values
* `State.rebuilt_iff` - when the document is built again
-/

namespace Questionnaire

/-- Computed variables look only at earlier ones. -/
structure Catalog.ComputesInOrder (c : Catalog) : Prop where
  /-- None looks at itself. -/
  own : ∀ u ∈ c.computedVars, ∀ key ∈ u.reads, (u.target == key) = false
  /-- None looks at a later one. -/
  ordered : c.computedVars.Pairwise fun u v => ∀ key ∈ u.reads, (v.target == key) = false

instance (c : Catalog) : Decidable c.ComputesInOrder :=
  decidable_of_iff
    ((∀ u ∈ c.computedVars, ∀ key ∈ u.reads, (u.target == key) = false) ∧
      c.computedVars.Pairwise fun u v => ∀ key ∈ u.reads, (v.target == key) = false)
    ⟨fun ⟨own, ordered⟩ => ⟨own, ordered⟩, fun ⟨own, ordered⟩ => ⟨own, ordered⟩⟩

namespace State

variable {c : Catalog} {s s' : State} {q : Question} {v key : Json} {applied : Applied}

/-- The states that answers lead to from no stored values. -/
inductive FromScratch (c : Catalog) : State → Prop where
  /-- Nothing was answered. -/
  | start {s : State} (h : ofFields c [] none = .ok s) : FromScratch c s
  /-- A value was given for a question. -/
  | value {s s' : State} {q : Question} {v : Json} {applied : Applied} (before : FromScratch c s)
    (held : c.Holds q) (given : v.isAnswered = true)
    (h : s.applyValue c q v = .ok (s', applied)) : FromScratch c s'
  /-- A question was answered. -/
  | answer {s s' : State} {q : Question} {answer : String} {applied : Applied}
    (before : FromScratch c s) (held : c.Holds q)
    (h : s.applyAnswer c q answer = .ok (.ok (s', applied))) : FromScratch c s'

/-- Over some values computed variables and modules can be brought up to date. -/
def Refreshes (c : Catalog) (values : Fields) : Prop :=
  ∃ computed enabled, compute values c.computedVars = .ok computed ∧
    enabledModules computed c.modules [] = .ok enabled

/-- A state has for every field that is not computed its answer or its default, the answers are
filled in, and computed variables and modules are up to date. -/
structure Tracks (c : Catalog) (s : State) : Prop where
  /-- The document is filled in, up to the order of names. -/
  document : s.document.Reordered
    (Question.fillAll (answer? s.values s.status) (c.questions.map (·.2)) (.obj []))
  /-- The values stand under distinct scalars. -/
  regular : Assoc.Regular s.values
  /-- A field has an answer or its default. -/
  fields : ∀ key, (∀ u ∈ c.computedVars, (u.target == key) = false) →
    (∃ v, Assoc.valueAt? key s.values = some v ∧ v.isAnswered = true ∧
      Assoc.valueAt? key s.status = some .answered) ∨
    (Assoc.valueAt? key s.values = Assoc.valueAt? key c.defaults ∧
      Assoc.valueAt? key s.status = (Assoc.valueAt? key c.defaults).map fun _ => .defaulted)
  /-- It was brought up to date. -/
  refreshed : ∃ t, refresh c t = .ok s

/-! ## One answer after the other -/

/-- The document of stored values is filled in. -/
theorem documentOf_eq (places : ∀ e ∈ c.questions, e.2.HasPlace)
    (isKey : ∀ e ∈ c.questions, e.2.fieldKey.isKey = true) (stored : Fields) :
    documentOf c stored none = .ok (Question.fillAll
      (answer? (completed c stored) (completedStatus c stored)) (c.questions.map (·.2))
      (.obj [])) :=
  writeAnswered_eq (List.forall_mem_map.2 places) (List.forall_mem_map.2 isKey) []

/-- The fields of questions are scalars in a catalog from which a state can be built. -/
theorem isKey_of_ofFields {stored : Fields} (h : ofFields c stored none = .ok s) :
    ∀ e ∈ c.questions, e.2.fieldKey.isKey = true :=
  List.forall_mem_map.1 (isKey_of_writeAnswered (ofFields_spec h).1)

/-- Before the first answer every field has its default. -/
theorem tracks_of_ofFields_nil (loaded : c.Loaded) (usable : c.usable = .ok ())
    (apart : c.FillsApart) (h : ofFields c [] none = .ok s) : Tracks c s := by
  obtain ⟨hdocument, hvalues, hstatus⟩ := ofFields_spec h
  have defaults := loaded.defaults.1
  have isKey := Catalog.isKey_of_usable usable
  have places := (Catalog.filesQuestions_of_accepted loaded.accepted).places
  rw [documentOf_eq places (isKey_of_ofFields h)] at hdocument
  have hvalue {key : Json} (uncomputed : ∀ u ∈ c.computedVars, (u.target == key) = false) :
      Assoc.valueAt? key s.values = Assoc.valueAt? key (completed c []) :=
    valueAt?_compute isKey hvalues uncomputed
  refine ⟨?_, ?_, fun key uncomputed => .inr ?_, ?_⟩
  · rw [← Except.ok.inj hdocument, hstatus]
    rw [Question.fillAll_congr (List.forall_mem_map.2 fun e he =>
      answer?_congr (hvalue (apart.uncomputed e he)).symm rfl)]
    exact .refl _
  · exact regular_compute isKey (regular_withDefaults defaults.isKey .nil _) hvalues
  · rw [hvalue uncomputed, hstatus]
    exact completed_nil defaults key
  · rw [ofFields_eq] at h
    obtain ⟨document, -, hrefresh⟩ := Outcome.bind_eq_ok_iff.1 h
    exact ⟨_, hrefresh⟩

/-- With a further answer the field of its question has that, and the document is filled in as
before. -/
theorem Tracks.applyValue (tracks : Tracks c s) (loaded : c.Loaded) (usable : c.usable = .ok ())
    (apart : c.FillsApart) (held : c.Holds q) (given : v.isAnswered = true)
    (h : s.applyValue c q v = .ok (s', applied)) : Tracks c s' := by
  obtain ⟨hkey, -, document, hwrite, hrefresh⟩ := applyValue_spec h
  obtain ⟨hvalues, -, rfl, hstatus⟩ := refresh_spec hrefresh
  obtain ⟨e, he, rfl⟩ := held
  have isKey := Catalog.isKey_of_usable usable
  have name := Json.isName_of_isKey hkey
  have places := (Catalog.filesQuestions_of_accepted loaded.accepted).places
  have hvalue {key : Json} (uncomputed : ∀ u ∈ c.computedVars, (u.target == key) = false) :
      Assoc.valueAt? key s'.values =
        if e.2.fieldKey == key then some v else Assoc.valueAt? key s.values :=
    (valueAt?_compute isKey hvalues uncomputed).trans (Assoc.valueAt?_put name v s.values key)
  have hstatus (key : Json) : Assoc.valueAt? key s'.status =
      if e.2.fieldKey == key then some .answered else Assoc.valueAt? key s.status :=
    (congrArg _ hstatus).trans
      (Assoc.valueAt?_put name FieldStatus.answered s.status key)
  refine ⟨?_, ?_, fun key uncomputed => ?_, ⟨_, hrefresh⟩⟩
  · rw [writeDocument, if_neg (places e he).jsonPath_ne] at hwrite
    rw [Question.eq_write_of_set hwrite]
    refine (Path.reordered_write tracks.document v e.2.segments).trans ?_
    refine Question.reordered_write_fillAll name ?_ ?_ (List.mem_map_of_mem he) ?_ ?_ _
    · exact List.pairwise_map.2 apart.fields
    · refine List.pairwise_map.2 (apart.paths.imp_of_mem fun hd hd' independent => ?_)
      exact (places _ hd).apart (places _ hd') independent
    · rw [answer?, hstatus, if_pos name.self, hvalue (apart.uncomputed e he), if_pos name.self]
      rfl
    · refine List.forall_mem_map.2 fun d hd hne => answer?_congr ?_ ?_
      · rw [hvalue (apart.uncomputed d hd), hne, if_neg Bool.false_ne_true]
      · rw [hstatus, hne, if_neg Bool.false_ne_true]
  · exact regular_compute isKey (tracks.regular.put hkey v) hvalues
  · rw [hvalue uncomputed, hstatus]
    split
    · exact .inl ⟨v, rfl, given, rfl⟩
    · exact tracks.fields key uncomputed

/-- Every state that answers lead to from scratch has for each field its answer or its default, and
a document that is filled in. -/
theorem tracks_of_fromScratch (loaded : c.Loaded) (usable : c.usable = .ok ())
    (apart : c.FillsApart) (scratch : FromScratch c s) : Tracks c s := by
  induction scratch with
  | start h => exact tracks_of_ofFields_nil loaded usable apart h
  | value _ held given h ih => exact ih.applyValue loaded usable apart held given h
  | answer _ held h ih =>
    obtain ⟨v, hread, hvalue⟩ := applyAnswer_spec h
    obtain ⟨e, he, rfl⟩ := held
    have given := Answer.isAnswered_of_read
      ((Catalog.filesQuestions_of_accepted loaded.accepted).options e he) hread
    exact ih.applyValue loaded usable apart ⟨e, he, rfl⟩ given hvalue

/-! ## What is stored -/

/-- Whether the value of a field is worth storing. -/
def isKept (c : Catalog) (s : State) (key : Json) : Bool :=
  !(s.statusOf key == .defaulted) && !(c.computedTargets.contains key)

theorem contains_computedTargets (isKey : ∀ u ∈ c.computedVars, u.target.isKey = true)
    (key : Json) :
    c.computedTargets.contains key = true ↔ ∃ u ∈ c.computedVars, (u.target == key) = true := by
  rw [List.contains_eq_any_beq, List.any_eq_true, Catalog.computedTargets]
  constructor
  · rintro ⟨target, htarget, hequal⟩
    obtain ⟨u, hu, rfl⟩ := List.mem_map.1 htarget
    rw [← (Json.isName_of_isKey (isKey u hu)).symm] at hequal
    exact ⟨u, hu, hequal⟩
  · rintro ⟨u, hu, hequal⟩
    rw [(Json.isName_of_isKey (isKey u hu)).symm] at hequal
    exact ⟨u.target, List.mem_map_of_mem hu, hequal⟩

theorem contains_computedTargets_eq_false_iff
    (isKey : ∀ u ∈ c.computedVars, u.target.isKey = true) (key : Json) :
    c.computedTargets.contains key = false ↔ ∀ u ∈ c.computedVars, (u.target == key) = false := by
  rw [← Bool.not_eq_true, contains_computedTargets isKey key]
  simp only [not_exists, not_and, Bool.not_eq_true]

theorem contains_congr {k : Json} (name : Assoc.IsName key) (h : (k == key) = true)
    (keys : List Json) : keys.contains k = keys.contains key := by
  rw [List.contains_eq_any_beq, List.contains_eq_any_beq]
  exact congrArg (List.any keys) (funext (name.left h))

/-- A field keeps its value when it is worth storing. -/
theorem valueAt?_collected_eq (regular : Assoc.Regular s.values) (key : Json) :
    Assoc.valueAt? key (s.collected c) =
      if isKept c s key then Assoc.valueAt? key s.values else none := by
  refine Assoc.valueAt?_filter_key (p := isKept c s) fun e he hbeq => ?_
  have name := regular.isName e he
  rw [name.symm] at hbeq
  have hstatus : s.statusOf key = s.statusOf e.1 :=
    congrArg (·.getD .unset) (Assoc.valueAt?_congr name hbeq s.status)
  rw [isKept, isKept, hstatus, contains_congr name hbeq]

/-- Of the fields that are not computed all are stored but those with a default. -/
theorem valueAt?_collected (regular : Assoc.Regular s.values)
    (isKey : ∀ u ∈ c.computedVars, u.target.isKey = true)
    (uncomputed : ∀ u ∈ c.computedVars, (u.target == key) = false) :
    Assoc.valueAt? key (s.collected c) =
      if s.statusOf key = .defaulted then none else Assoc.valueAt? key s.values := by
  have hcomputed := (contains_computedTargets_eq_false_iff isKey key).2 uncomputed
  rw [valueAt?_collected_eq regular, isKept, hcomputed]
  cases s.statusOf key <;> rfl

theorem regular_collected (regular : Assoc.Regular s.values) :
    Assoc.Regular (s.collected c) :=
  regular.filter _

/-- The values that are stored are completed to the ones they were taken from, but for computed
ones. -/
theorem Tracks.valueAt?_rebuilt (tracks : Tracks c s) (defaults : Assoc.Regular c.defaults)
    (isKey : ∀ u ∈ c.computedVars, u.target.isKey = true)
    (uncomputed : ∀ u ∈ c.computedVars, (u.target == key) = false) :
    Assoc.valueAt? key (completed c (s.collected c)) = Assoc.valueAt? key s.values ∧
      Assoc.valueAt? key (completedStatus c (s.collected c)) = Assoc.valueAt? key s.status := by
  have hcollected := valueAt?_collected tracks.regular isKey uncomputed
  have hstored := valueAt?_storedStatus (regular_collected (c := c) tracks.regular) key
  rw [completed, completedStatus, valueAt?_withDefaults defaults, status_withDefaults defaults,
    hstored, Assoc.hasKey]
  rcases tracks.fields key uncomputed with ⟨v, hvalue, given, hstatus⟩ | ⟨hvalue, hstatus⟩
  · -- an answer is stored, and found to be one again
    rw [if_neg (by rw [statusOf, hstatus]; simp), hvalue] at hcollected
    have hnull : v ≠ .null := by
      rintro rfl
      cases given
    rw [Fields.lacks_eq_false hcollected hnull, hcollected, hvalue, hstatus, Option.filter_some,
      if_pos given]
    exact ⟨rfl, rfl⟩
  · -- a default is left out, and put in again
    have hnone : Assoc.valueAt? key (s.collected c) = none := by
      rw [hcollected, statusOf, hstatus, hvalue]
      cases Assoc.valueAt? key c.defaults <;> rfl
    have hlacks : (s.collected c).lacks key = true := by
      rw [Fields.lacks, hnone]
      rfl
    rw [hlacks, hnone, hvalue, hstatus]
    cases Assoc.valueAt? key c.defaults <;> exact ⟨rfl, rfl⟩

/-- The document that is built from what is stored. -/
theorem Tracks.documentOf_collected (tracks : Tracks c s) (loaded : c.Loaded)
    (usable : c.usable = .ok ()) (apart : c.FillsApart)
    (fieldKeys : ∀ e ∈ c.questions, e.2.fieldKey.isKey = true) :
    documentOf c (s.collected c) none = .ok (Question.fillAll (answer? s.values s.status)
      (c.questions.map (·.2)) (.obj [])) := by
  rw [documentOf_eq (Catalog.filesQuestions_of_accepted loaded.accepted).places fieldKeys]
  refine congrArg _ (Question.fillAll_congr (List.forall_mem_map.2 fun e he => ?_) _)
  obtain ⟨hvalue, hstatus⟩ := tracks.valueAt?_rebuilt loaded.defaults.1
    (Catalog.isKey_of_usable usable) (apart.uncomputed e he)
  exact answer?_congr hvalue hstatus

/-- Computed variables that look only at earlier ones, and modules, come out the same again. -/
theorem Tracks.refreshes (tracks : Tracks c s) (loaded : c.Loaded) (usable : c.usable = .ok ())
    (inOrder : c.ComputesInOrder) : Refreshes c (completed c (s.collected c)) := by
  have isKey := Catalog.isKey_of_usable usable
  obtain ⟨t, hrefresh⟩ := tracks.refreshed
  obtain ⟨hvalues, henabled, -, -⟩ := refresh_spec hrefresh
  obtain ⟨computed, hcomputed, agree⟩ := exists_compute_of_ordered isKey inOrder.own
    inOrder.ordered (fun key uncomputed => by
      rw [(tracks.valueAt?_rebuilt loaded.defaults.1 isKey uncomputed).1,
        valueAt?_compute isKey hvalues uncomputed]) hvalues
  refine ⟨computed, s.enabled, hcomputed, ?_⟩
  rw [← henabled]
  exact enabledModules_congr (fun m _ name _ => (agree (.str name)).symm) []

/-- The fields of questions stay scalars. -/
theorem FromScratch.isKey (scratch : FromScratch c s) :
    ∀ e ∈ c.questions, e.2.fieldKey.isKey = true := by
  induction scratch with
  | start h => exact isKey_of_ofFields h
  | value _ _ _ _ ih => exact ih
  | answer _ _ _ ih => exact ih

/-- From what answers have left to store their document is built again, up to the order of names.
So a state with that document is built exactly if computed variables and modules can be brought up
to date over the stored values.  They can whenever computed variables look only at earlier ones. -/
theorem rebuilt_iff {c : Catalog} {s : State} (loaded : c.Loaded) (usable : c.usable = .ok ())
    (apart : c.FillsApart) (scratch : FromScratch c s) :
    (∃ document, documentOf c (s.collected c) none = .ok document ∧
      s.document.Reordered document) ∧
    ((∃ s', ofFields c (s.collected c) none = .ok s' ∧ s.document.Reordered s'.document) ↔
      Refreshes c (completed c (s.collected c))) ∧
    (c.ComputesInOrder → Refreshes c (completed c (s.collected c))) := by
  have tracks := tracks_of_fromScratch loaded usable apart scratch
  have hdocument := tracks.documentOf_collected loaded usable apart scratch.isKey
  refine ⟨⟨_, hdocument, tracks.document⟩, ?_, tracks.refreshes loaded usable⟩
  rw [ofFields_eq, hdocument, Outcome.ok_bind]
  constructor
  · rintro ⟨s', h, -⟩
    obtain ⟨hvalues, henabled, -, -⟩ := refresh_spec h
    exact ⟨_, _, hvalues, henabled⟩
  · rintro ⟨computed, enabled, hcomputed, henabled⟩
    exact ⟨_, refresh_eq_ok_iff.2 ⟨computed, enabled, hcomputed, henabled, rfl⟩, tracks.document⟩

/-- A catalog that asks for the owner of a home and for two of its rooms, and computes its area. -/
def rooms : Json :=
  .obj [
    ("questions", .arr [
      .obj [("qid", .str "Q1"), ("field_key", .str "owner"), ("json_path", .str "home.owner")],
      .obj [("qid", .str "Q2"), ("field_key", .str "kitchen"), ("data_type", .str "number"),
        ("json_path", .str "home.rooms[0].area")],
      .obj [("qid", .str "Q3"), ("field_key", .str "bedroom"), ("data_type", .str "number"),
        ("json_path", .str "home.rooms[1].area")]]),
    ("stages", .arr [.obj [("stage_key", .str "s"),
      ("question_ids", .arr [.str "Q1", .str "Q2", .str "Q3"])]]),
    ("engine_contract", .obj [
      ("defaults", .obj [("kitchen", .int 8)]),
      ("computed_vars", .arr [.obj [("target", .str "area"),
        ("terms", .arr [.str "kitchen", .str "bedroom"])]])])]

theorem wellFormed_rooms : rooms.WellFormed := by
  simp [rooms]

/-- The bedroom is answered first and corrected in the end, and the document is built again. -/
theorem rebuilt_iff_rooms : ∃ c s s', c.Loaded ∧ c.usable = .ok () ∧ c.FillsApart ∧
    FromScratch c s ∧ (s.collected c).length = 2 ∧ ofFields c (s.collected c) none = .ok s' ∧
    s.document.Reordered s'.document := by
  have evaluated : Outcome.Gives (Catalog.ofJson rooms "catalog.json") fun e =>
      Outcome.Gives e.1.usable (fun _ => True) ∧ e.1.FillsApart ∧ e.1.ComputesInOrder ∧
      ∃ q₁ ∈ e.1.question? (.str "Q1"), ∃ q₃ ∈ e.1.question? (.str "Q3"),
      Outcome.Gives (ofFields e.1 [] none) fun s₀ =>
      Outcome.Gives (s₀.applyValue e.1 q₃ (.int 12)) fun a₁ =>
      Outcome.Gives (a₁.1.applyAnswer e.1 q₁ "Ann") fun r => ∃ a₂ ∈ r.toOption,
      Outcome.Gives (a₂.1.applyValue e.1 q₃ (.int 14)) fun a₃ =>
        (a₃.1.collected e.1).length = 2 := by
    decide +kernel
  obtain ⟨⟨c, warnings⟩, hc, ⟨_, usable, -⟩, apart, inOrder, q₁, hq₁, q₃, hq₃, s₀, hs₀,
    ⟨s₁, applied₁⟩, h₁, r, h₂, ⟨s₂, applied₂⟩, hr, ⟨s₃, applied₃⟩, h₃, hlength⟩ := evaluated
  have hr : r = .ok (s₂, applied₂) := by
    cases r <;> cases hr
    rfl
  have held₁ := Catalog.holds_of_question? hq₁
  have held₃ := Catalog.holds_of_question? hq₃
  have scratch : FromScratch c s₃ :=
    .value (.answer (.value (.start hs₀) held₃ rfl h₁) held₁ (hr ▸ h₂)) held₃ rfl h₃
  have loaded : c.Loaded := ⟨rooms, "catalog.json", warnings, wellFormed_rooms, hc⟩
  obtain ⟨-, rebuilt, refreshes⟩ := rebuilt_iff loaded usable apart scratch
  obtain ⟨s', hs', reordered⟩ := rebuilt.2 (refreshes inOrder)
  exact ⟨c, s₃, s', loaded, usable, apart, scratch, hlength, hs', reordered⟩

/-- A catalog that asks for a fee and a bid.  The cost follows from the rate, which is computed
behind it, or else from the bid. -/
def bidding : Json :=
  .obj [
    ("questions", .arr [
      .obj [("qid", .str "Q1"), ("field_key", .str "fee"), ("data_type", .str "number")],
      .obj [("qid", .str "Q2"), ("field_key", .str "bid"), ("data_type", .str "number")]]),
    ("stages", .arr [.obj [("stage_key", .str "s"),
      ("question_ids", .arr [.str "Q1", .str "Q2"])]]),
    ("engine_contract", .obj [("computed_vars", .arr [
      .obj [("target", .str "cost"),
        ("terms", .arr [.obj [("fields", .arr [.str "rate", .str "bid"])]])],
      .obj [("target", .str "rate"), ("terms", .arr [.str "fee"])]])])]

theorem wellFormed_bidding : bidding.WellFormed := by
  simp [bidding]

/-- While a rate is there the cost does not look at the bid, which may be any integer.  From what is
stored no state can be built any more. -/
theorem not_rebuilt_bidding : ∃ c s, c.Loaded ∧ c.usable = .ok () ∧ c.FillsApart ∧
    FromScratch c s ∧ ¬ ∃ s', ofFields c (s.collected c) none = .ok s' := by
  have evaluated : Outcome.Gives (Catalog.ofJson bidding "catalog.json") fun e =>
      Outcome.Gives e.1.usable (fun _ => True) ∧ e.1.FillsApart ∧
      ∃ q₁ ∈ e.1.question? (.str "Q1"), ∃ q₂ ∈ e.1.question? (.str "Q2"),
      Outcome.Gives (ofFields e.1 [] none) fun s₀ =>
      Outcome.Gives (s₀.applyValue e.1 q₁ (.int 1)) fun a₁ =>
      Outcome.Gives (a₁.1.applyValue e.1 q₂ (.int (10 ^ 400))) fun a₂ =>
        ¬ Outcome.Gives (ofFields e.1 (a₂.1.collected e.1) none) fun _ => True := by
    decide +kernel
  obtain ⟨⟨c, warnings⟩, hc, ⟨_, usable, -⟩, apart, q₁, hq₁, q₂, hq₂, s₀, hs₀, ⟨s₁, applied₁⟩, h₁,
    ⟨s₂, applied₂⟩, h₂, hfails⟩ := evaluated
  have scratch : FromScratch c s₂ := .value (.value (.start hs₀)
    (Catalog.holds_of_question? hq₁) rfl h₁) (Catalog.holds_of_question? hq₂) rfl h₂
  exact ⟨c, s₂, ⟨bidding, "catalog.json", warnings, wellFormed_bidding, hc⟩, usable, apart, scratch,
    fun ⟨s', h⟩ => hfails ⟨s', h, trivial⟩⟩

end State

end Questionnaire
