import Questionnaire.Proofs.Catalog.Values
import Questionnaire.Proofs.Json.Path
import Questionnaire.Proofs.State.Computed
import Questionnaire.Proofs.State.Defaults

/-!
# The state of stored values

A turn starts from the stored values with defaults for the missing ones, and from the stored
document or one that is built from the values.

## Main Definitions

* `State.completed`, `State.completedStatus` - stored values with defaults for the missing ones
* `State.documentOf` - the document of stored values

## Main Statements

* `State.ofFields_eq`, `State.ofFields_spec` - the state of stored values, in these terms
* `State.valueAt?_completed_or` - every value is stored, or a default
* `State.valueAt?_completed_of_or`, `State.defaulted_of_or` - what becomes of a field when a value
  is stored over it
* `State.isDocument_documentOf` - the document of stored values is one
-/

namespace Questionnaire

namespace State

variable {c : Catalog}

/-- Stored values with defaults for the missing ones. -/
def completed (c : Catalog) (stored : Fields) : Fields :=
  (withDefaults c.defaults (stored, storedStatus stored)).1

/-- Where the values of stored fields and defaults come from. -/
def completedStatus (c : Catalog) (stored : Fields) : Assoc Json FieldStatus :=
  (withDefaults c.defaults (stored, storedStatus stored)).2

/-- The document of stored values, built from these if none is stored. -/
def documentOf (c : Catalog) (stored : Fields) : Option Json → Except Fault Json
  | some d => .ok d
  | none => writeAnswered (completed c stored) (completedStatus c stored) (c.questions.map (·.2))
    (.obj [])

theorem ofFields_eq (c : Catalog) (stored : Fields) (document : Option Json) :
    ofFields c stored document = (do
      let document ← documentOf c stored document
      refresh c ⟨document, completed c stored, [], completedStatus c stored⟩) := by
  cases document <;> rfl

/-- What the state of stored values holds. -/
theorem ofFields_spec {stored : Fields} {document : Option Json} {s : State}
    (h : ofFields c stored document = .ok s) :
    documentOf c stored document = .ok s.document ∧
      compute (completed c stored) c.computedVars = .ok s.values ∧
      s.status = completedStatus c stored := by
  rw [ofFields_eq] at h
  obtain ⟨d, hd, h⟩ := Outcome.bind_eq_ok_iff.1 h
  obtain ⟨hvalues, -, rfl, hstatus⟩ := refresh_spec h
  exact ⟨hd, hvalues, hstatus⟩

/-- Where nothing is stored there are defaults. -/
theorem completed_nil (regular : Assoc.Regular c.defaults) (key : Json) :
    Assoc.valueAt? key (completed c []) = Assoc.valueAt? key c.defaults ∧
      Assoc.valueAt? key (completedStatus c []) =
        (Assoc.valueAt? key c.defaults).map fun _ => .defaulted := by
  have hlacks : Fields.lacks [] key = true := rfl
  rw [completed, completedStatus, valueAt?_withDefaults regular, status_withDefaults regular,
    hlacks, Assoc.hasKey]
  cases Assoc.valueAt? key c.defaults <;> exact ⟨rfl, rfl⟩

/-! ## Values that are stored over others -/

section

variable {stored stored' : Fields} {key : Json} {new : Option Json}

/-- A field lacks a value when neither was a new one stored nor was there one before. -/
theorem lacks_of_or (hnew : ∀ v, new = some v → v ≠ .null)
    (h : Assoc.valueAt? key stored' = new.or (Assoc.valueAt? key stored)) :
    stored'.lacks key = (new.isNone && stored.lacks key) := by
  cases new with
  | some v => exact Fields.lacks_eq_false h (hnew v rfl)
  | none => exact Fields.lacks_congr h

/-- Defaults stand behind a new value. -/
theorem valueAt?_completed_of_or (regular : Assoc.Regular c.defaults)
    (hnew : ∀ v, new = some v → v ≠ .null)
    (h : Assoc.valueAt? key stored' = new.or (Assoc.valueAt? key stored)) :
    Assoc.valueAt? key (completed c stored') =
      new.or (Assoc.valueAt? key (completed c stored)) := by
  have hlacks := lacks_of_or hnew h
  rw [completed, completed, valueAt?_withDefaults regular, valueAt?_withDefaults regular, hlacks, h]
  cases new <;> rfl

/-- A field stays provisional until a new value is stored. -/
theorem defaulted_of_or (regular : Assoc.Regular c.defaults)
    (hnew : ∀ v, new = some v → v ≠ .null)
    (h : Assoc.valueAt? key stored' = new.or (Assoc.valueAt? key stored)) :
    Assoc.valueAt? key (completedStatus c stored') = some .defaulted ↔
      new = none ∧ Assoc.valueAt? key (completedStatus c stored) = some .defaulted := by
  rw [completedStatus, completedStatus, defaulted_withDefaults regular,
    defaulted_withDefaults regular, lacks_of_or hnew h, Bool.and_eq_true,
    Option.isNone_iff_eq_none, and_assoc]

end

/-- Every value is stored, or stands in for a missing one. -/
theorem valueAt?_completed_or (regular : Assoc.Regular c.defaults) {stored : Fields} {key v : Json}
    (h : Assoc.valueAt? key (completed c stored) = some v) :
    Assoc.valueAt? key c.defaults = some v ∨ Assoc.valueAt? key stored = some v := by
  rw [completed, valueAt?_withDefaults regular] at h
  split at h
  · rcases Option.or_eq_some_iff.1 h with h | ⟨-, h⟩
    · exact .inl h
    · exact .inr h
  · exact .inr h

/-- A value that stands in for a missing one is well formed. -/
theorem wellFormed_completed (loaded : c.Loaded) {stored : Fields} {key v : Json}
    (hstored : ∀ w, Assoc.valueAt? key stored = some w → w.WellFormed)
    (h : Assoc.valueAt? key (completed c stored) = some v) : v.WellFormed := by
  obtain ⟨regular, hdefaults⟩ := loaded.defaults
  rcases valueAt?_completed_or regular h with h | h
  · obtain ⟨e, he, -, rfl⟩ := Assoc.mem_of_valueAt? h
    exact hdefaults e he
  · exact hstored v h

theorem isDocument_writeAnswered {values : Fields} {status : Assoc Json FieldStatus}
    {questions : List Question} {document document' : Json}
    (wellFormed : ∀ q ∈ questions, ∀ v, Assoc.valueAt? q.fieldKey values = some v → v.WellFormed)
    (hdocument : document.IsDocument)
    (h : writeAnswered values status questions document = .ok document') :
    document'.IsDocument := by
  induction questions generalizing document with
  | nil =>
    cases h
    exact hdocument
  | cons q rest ih =>
    obtain ⟨key, hkey, h⟩ := Outcome.bind_eq_ok_iff.1 h
    obtain ⟨-, rfl⟩ := (Json.asKey_eq_ok_iff _ _).1 hkey
    have hrest := fun r hr => wellFormed r (List.mem_cons_of_mem q hr)
    split at h
    · obtain ⟨written, hwritten, h⟩ := Outcome.bind_eq_ok_iff.1 h
      have hvalue := Path.wellFormed_getD (wellFormed q List.mem_cons_self)
      exact ih hrest (Path.isDocument_set hdocument hvalue hwritten) h
    · exact ih hrest hdocument h

/-- The document of stored values is a document. -/
theorem isDocument_documentOf (loaded : c.Loaded) {stored : Fields}
    (hstored : ∀ e ∈ c.questions, ∀ v,
      Assoc.valueAt? e.2.fieldKey stored = some v → v.WellFormed)
    {document : Option Json} (hdocument : ∀ d, document = some d → d.IsDocument) {d : Json}
    (h : documentOf c stored document = .ok d) : d.IsDocument := by
  cases document with
  | some d' =>
    cases h
    exact hdocument d rfl
  | none =>
    refine isDocument_writeAnswered (fun q hq v hv => ?_) Json.isDocument_empty h
    obtain ⟨e, he, rfl⟩ := List.mem_map.1 hq
    exact wellFormed_completed loaded (hstored e he) hv

end State

end Questionnaire
