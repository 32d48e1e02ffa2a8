import Questionnaire.Proofs.Answer.Reading
import Questionnaire.Proofs.Catalog.Questions
import Questionnaire.Proofs.Json.RoundTrip
import Questionnaire.Proofs.State.Stored
import Questionnaire.Proofs.Store.Scopes
import Questionnaire.Proofs.Turn.Patch
import Questionnaire.Proofs.Turn.Result

/-!
# The form document

An accepted answer is written into the document that the section has loaded, and the document is
stored with the answer.  So the document holds the new answer, and of the other questions what the
loaded document held.

## Main Definitions

* `Question.FilledIn` - a document holds the stored value of a question
* `Catalog.Separated` - questions have different fields and independent paths
* `Flow.Fills` - what an answer makes of the document

## Main Statements

* `Flow.exists_fills_of_accept` - an accepted answer is written into the loaded document
* `Flow.Fills.filledIn_iff` - what the document holds then
-/

namespace Questionnaire

/-- A document holds, at the path of a question, the value that is stored for its field. -/
def Question.FilledIn (q : Question) (document : Json) (fields : Fields) : Prop :=
  ∃ v, Path.get document q.jsonPath = .ok v ∧ Assoc.valueAt? q.fieldKey fields = some v

namespace Catalog

/-- Different questions have different fields, which are no bookkeeping, and independent paths. -/
structure Separated (c : Catalog) : Prop where
  /-- No field is bookkeeping. -/
  free : ∀ e ∈ c.questions, Bookkeeping.owns e.2.fieldKey = false
  /-- The fields of different questions are different. -/
  fields : ∀ e ∈ c.questions, ∀ d ∈ c.questions, (e.1 == d.1) = false →
    (e.2.fieldKey == d.2.fieldKey) = false
  /-- The paths of different questions are independent. -/
  paths : ∀ e ∈ c.questions, ∀ d ∈ c.questions, (e.1 == d.1) = false →
    Path.Independent e.2.jsonPath d.2.jsonPath

instance (c : Catalog) : Decidable c.Separated :=
  decidable_of_iff
    ((∀ e ∈ c.questions, Bookkeeping.owns e.2.fieldKey = false) ∧
      ∀ e ∈ c.questions, ∀ d ∈ c.questions, (e.1 == d.1) = false →
        (e.2.fieldKey == d.2.fieldKey) = false ∧ Path.Independent e.2.jsonPath d.2.jsonPath)
    ⟨fun h => ⟨h.1, fun e he d hd hne => (h.2 e he d hd hne).1,
        fun e he d hd hne => (h.2 e he d hd hne).2⟩,
      fun h => ⟨h.free, fun e he d hd hne => ⟨h.fields e he d hd hne, h.paths e he d hd hne⟩⟩⟩

/-- The keys of the form: its document, and the fields of questions. -/
def OnForm (c : Catalog) (key : Json) : Prop :=
  key = Bookkeeping.document ∨ ∃ e ∈ c.questions, e.2.fieldKey = key

/-- The keys under which data is looked for: those of the form, and the rows of a table. -/
def Reads (c : Catalog) (key : Json) : Prop := c.OnForm key ∨ key = Bookkeeping.draftRows

end Catalog

namespace State

variable {c : Catalog} {s s' : State}

/-- Without rules nothing is derived. -/
theorem applyDerived_of_nil (h : c.derivedRules = []) (s : State) :
    s.applyDerived c = .ok (s, []) := by
  rw [applyDerived, h]
  rfl

/-- An answer is written into the document. -/
theorem document_of_applyValue {q : Question} {v : Json} {applied : Applied}
    (h : s.applyValue c q v = .ok (s', applied)) :
    writeDocument s.document q.jsonPath v = .ok s'.document := by
  obtain ⟨-, -, document, hdocument, hrefresh⟩ := applyValue_spec h
  obtain ⟨-, -, rfl, -⟩ := refresh_spec hrefresh
  exact hdocument

theorem writeDocument_of_hasPlace {q : Question} (place : q.HasPlace) (document v : Json) :
    writeDocument document q.jsonPath v = Path.set document q.jsonPath v :=
  if_neg place.jsonPath_ne

end State

namespace Flow

variable {f : Flow} {user : String} {m : MemoryStore} {p : Pointer} {q : Question}
  {a : Acceptance} {answer channel : Json}

theorem isDocument_storedDocument {fields : Fields}
    (wellFormed : ∀ v, Assoc.valueAt? Bookkeeping.document fields = some v → v.WellFormed)
    {d : Json} (h : storedDocument fields = some d) : d.IsDocument := by
  have hdecoded := Json.wellFormed_decoded .null (Path.wellFormed_getD wellFormed)
  unfold storedDocument at h
  split at h
  · rename_i ms hms
    cases h
    rw [hms] at hdecoded
    exact ⟨hdecoded, ms, rfl⟩
  · cases h

/-- A document that was written is found again. -/
theorem storedDocument_write {fields : Fields} {document : Json} {text : String}
    (isDocument : document.IsDocument) (hdump : document.dump = .ok text)
    (hfields : Assoc.valueAt? Bookkeeping.document fields = some (.str text)) :
    storedDocument fields = some document := by
  obtain ⟨hlength, rfl⟩ := Json.dump_eq_ok_iff.1 hdump
  obtain ⟨ms, rfl⟩ := isDocument.isObject
  unfold storedDocument
  rw [hfields, Option.getD_some,
    Json.decoded_write isDocument.wellFormed hlength .null (Json.trim_write_obj ms)]

/-- The rows of a draft were read from a value that is stored, or from a default. -/
theorem exists_decoded_of_draftRows {c : Catalog} {stored : Fields} {s : State}
    (hvalues : State.compute (State.completed c stored) c.computedVars = .ok s.values)
    {v : Json} (h : v ∈ draftRows s q) :
    ∃ w rows, Assoc.valueAt? Bookkeeping.draftRows (State.completed c stored) = some w ∧
      Json.decoded (.arr []) w = .arr rows ∧ v ∈ rows := by
  unfold draftRows at h
  dsimp only at h
  split at h
  · rename_i rows hrows
    have hv : v ∈ rows := by
      split at h
      · exact h
      · cases h
    unfold State.valueOf at hrows
    cases hfound : Assoc.valueAt? Bookkeeping.draftRows s.values with
    | none =>
      rw [hfound] at hrows
      cases hrows
      cases hv
    | some w =>
      rw [hfound, Option.getD_some] at hrows
      rcases State.valueAt?_compute_or hvalues hfound with ⟨x, rfl⟩ | hstored
      · -- a number in the place of the rows is no list
        unfold Json.ofWhole at hrows
        split at hrows <;> cases hrows
      · exact ⟨w, rows, hstored, hrows, hv⟩
  · cases h

/-- The rows of a table that were collected so far are values. -/
theorem isValue_draftRows {c : Catalog} (loaded : c.Loaded) {stored : Fields}
    (hstored : ∀ v, Assoc.valueAt? Bookkeeping.draftRows stored = some v → v.WellFormed)
    {s : State}
    (hvalues : State.compute (State.completed c stored) c.computedVars = .ok s.values)
    (q : Question) : (Json.arr (draftRows s q)).IsValue := by
  refine ⟨.arr fun v hv => ?_, by simp⟩
  obtain ⟨w, rows, hfound, hrows, hmem⟩ := exists_decoded_of_draftRows hvalues hv
  have hdecoded := Json.wellFormed_decoded (.arr (by simp) : (Json.arr []).WellFormed)
    (State.wellFormed_completed loaded hstored hfound)
  rw [hrows, Json.wellFormed_arr_iff] at hdecoded
  exact hdecoded v hmem

/-- What is taken as an answer is a value, whether it was read from a text or collected. -/
theorem exists_isValue_of_taking (loaded : f.catalog.Loaded) {stored : Fields}
    (hstored : ∀ v, Assoc.valueAt? Bookkeeping.draftRows stored = some v → v.WellFormed)
    {s s' : State} {text : String} {applied : Applied}
    (hvalues : State.compute (State.completed f.catalog stored) f.catalog.computedVars =
      .ok s.values) (h : f.taking s q text channel = .ok (.applied s' applied)) :
    ∃ v, s.applyValue f.catalog q v = .ok (s', applied) ∧ v.IsValue := by
  obtain ⟨v, happly, rfl | hread⟩ := applyValue_of_taking h
  · exact ⟨_, happly, isValue_draftRows loaded hstored hvalues q⟩
  · exact ⟨v, happly, Answer.isValue_of_read hread⟩

/-- The document of a turn is a document. -/
theorem isDocument_of_loadState (loaded : f.catalog.Loaded) {fields : Fields} {s : State}
    (hfields : ∀ key v, f.catalog.OnForm key → Assoc.valueAt? key fields = some v → v.WellFormed)
    (h : f.loadState fields = .ok s) : s.document.IsDocument :=
  State.isDocument_documentOf loaded (fun e he _ => hfields _ _ (.inr ⟨e, he, rfl⟩))
    (fun _ hd => isDocument_storedDocument (fun _ => hfields _ _ (.inl rfl)) hd)
    (State.ofFields_spec h).1

/-- An answer is written into a document, and stored with it. -/
structure Fills (q : Question) (document : Json) (a : Acceptance) (filled v : Json) : Prop where
  /-- The value is written at the path of the question. -/
  written : Path.set document q.jsonPath v = .ok filled
  /-- The result is a document. -/
  isDocument : filled.IsDocument
  /-- The field of the question may be looked up. -/
  isKey : q.fieldKey.isKey = true
  /-- The value is not absent. -/
  ne_null : v ≠ .null
  /-- What is stored stands under distinct scalars. -/
  regular : Assoc.Regular a.patch
  /-- What is stored is well formed. -/
  wellFormed : ∀ e ∈ a.patch, e.2.WellFormed
  /-- The document is stored. -/
  document : ∃ text, filled.dump = .ok text ∧
    Assoc.valueAt? Bookkeeping.document a.patch = some (.str text)
  /-- Besides bookkeeping, only the value is stored. -/
  value : ∀ key, Bookkeeping.owns key = false →
    Assoc.valueAt? key a.patch = if q.fieldKey == key then some v else none

/-- An accepted answer is written into the document that the section has loaded. -/
theorem exists_fills_of_accept (loaded : f.catalog.Loaded) (plain : f.preparer = none)
    (unruled : f.catalog.derivedRules = [])
    (sound : (m.scopes user).Sound f.catalog.Reads)
    (h : f.decide m user answer channel = .ok (.accept p q a)) :
    f.catalog.Holds q ∧ ∃ s filled v,
      f.loadState ((m.scopes user).read p.sectionKey) = .ok s ∧
        Fills q s.document a filled v := by
  obtain ⟨-, hquestion, s, text, s', applied, accepts⟩ := grounded_of_decide h
  have hholds := holds_of_questionAt hquestion
  obtain ⟨e, he, rfl⟩ := hholds
  obtain ⟨derived, pending, notes, passed⟩ := passed_of_judge accepts.judged
  -- neither a rule nor a preparer adds anything
  have hextra : (f.prepared e.2 s text).extra = [] := by rw [prepared, plain]
  have hderived := passed.rules
  rw [State.applyDerived_of_nil unruled] at hderived
  cases hderived
  have hpatch := passed.patch
  rw [hextra] at hpatch
  -- the stored values and the answer are well formed, and so is the document
  have hstored {key v : Json} (hreads : f.catalog.Reads key)
      (h : Assoc.valueAt? key ((m.scopes user).read p.sectionKey) = some v) : v.WellFormed :=
    sound.read p.sectionKey hreads h
  obtain ⟨-, hvalues, -⟩ := State.ofFields_spec accepts.loaded
  have isDocument : s.document.IsDocument :=
    isDocument_of_loadState loaded (fun key v hkey => hstored (.inl hkey)) accepts.loaded
  obtain ⟨v, happly, isValue⟩ :=
    exists_isValue_of_taking loaded (fun _ => hstored (.inr rfl)) hvalues accepts.taken
  obtain ⟨hfield, hvalue, hkey⟩ := applied_of_applyValue happly
  have hwritten := State.document_of_applyValue happly
  rw [State.writeDocument_of_hasPlace ((Catalog.filesQuestions_of_accepted loaded.accepted).places
    e he)] at hwritten
  refine ⟨⟨e, he, rfl⟩, s, a.state.document, v, accepts.loaded, hwritten,
    Path.isDocument_set isDocument isValue.wellFormed hwritten, hkey, isValue.ne_null,
    ?_, ?_, ?_, ?_⟩
  · rw [hpatch]
    exact regular_answerPatch applied (by simp) passed.written .nil (hfield ▸ hkey)
  · rw [hpatch]
    refine Assoc.mem_overlay_value (by simp [Assoc.overlay]) fun d hd => ?_
    rcases List.mem_cons.1 hd with rfl | hd
    · dsimp only
      rw [hvalue]
      exact isValue.wellFormed
    · exact wellFormed_of_bookkeeping passed.written d hd
  · rw [hpatch]
    exact document_answerPatch [] [] applied passed.written
  · intro key hfree
    rw [hpatch, valueAt?_answerPatch passed.written .nil (hfield ▸ hkey) hfree, hfield, hvalue]
    rfl

variable {document filled v : Json}

namespace Fills

variable (fills : Fills q document a filled v) {before after : Fields}
  (hafter : ∀ key, Assoc.valueAt? key after =
    ((Assoc.valueAt? key a.patch).filter Scopes.isWritten).or (Assoc.valueAt? key before))

include fills hafter

/-- The document is found again after it was stored. -/
theorem storedDocument_eq : storedDocument after = some filled := by
  obtain ⟨text, htext, hdocument⟩ := fills.document
  refine storedDocument_write fills.isDocument htext ?_
  rw [hafter, hdocument]
  rfl

/-- Of the fields of questions only the answered one has changed. -/
theorem valueAt?_after {key : Json} (hfree : Bookkeeping.owns key = false) :
    Assoc.valueAt? key after =
      if q.fieldKey == key then some v else Assoc.valueAt? key before := by
  rw [hafter, fills.value key hfree]
  split
  · rw [Option.filter_some, if_pos ((Scopes.isWritten_iff v).2 fills.ne_null), Option.some_or]
  · rw [Option.filter_none, Option.none_or]

/-- The document holds the answer. -/
theorem filledIn (hfree : Bookkeeping.owns q.fieldKey = false) : q.FilledIn filled after := by
  refine ⟨v, Path.get_set fills.written, ?_⟩
  rw [fills.valueAt?_after hafter hfree, if_pos (Json.isName_of_isKey fills.isKey).self]

/-- Of another question the document holds what it held before. -/
theorem filledIn_iff {q' : Question} (hfree : Bookkeeping.owns q'.fieldKey = false)
    (hfield : (q.fieldKey == q'.fieldKey) = false)
    (independent : Path.Independent q.jsonPath q'.jsonPath) :
    q'.FilledIn filled after ↔ q'.FilledIn document before := by
  unfold Question.FilledIn
  rw [fills.valueAt?_after hafter hfree, hfield, if_neg Bool.false_ne_true,
    Path.get_set_of_independent fills.written independent]

end Fills

end Flow

end Questionnaire
