import Questionnaire.Proofs.Catalog.Questions
import Questionnaire.Proofs.Json.Reordering
import Questionnaire.State.Basic

/-!
# Filling in a document

A document is built from values by writing the answer to each question at its path, in the order of
the catalog.  When the questions have different fields and independent paths, an answer that is
given later might as well have been there from the beginning.

## Main Definitions

* `Question.fill`, `Question.fillAll` - a document with the answers to questions
* `State.answer?` - the answer to a question
* `Catalog.FillsApart` - questions that do not get in each other's way

## Main Statements

* `State.writeAnswered_eq` - building a document fills in the answers
* `Question.reordered_write_fillAll` - an answer is filled in later as it is at once
-/

namespace Questionnaire

open Json (Reordered)

namespace Question

/-- The segments of the path of a question. -/
def segments (q : Question) : List Path.Segment :=
  match Path.parse q.jsonPath with
  | .ok segments => segments
  | .error _ => []

/-- The document with the answer to a question, if there is one. -/
def fill (q : Question) (answer? : Option Json) (document : Json) : Json :=
  match answer? with
  | some v => Path.write v q.segments document
  | none => document

/-- The document with the answers to some questions, one after the other. -/
def fillAll (answer? : Question → Option Json) : List Question → Json → Json
  | [], document => document
  | q :: rest, document => fillAll answer? rest (q.fill (answer? q) document)

variable {q : Question} {questions : List Question} {f f' : Question → Option Json}
  {document document' v : Json}

/-- A value is written at the place of a question. -/
theorem HasPlace.set_obj (place : q.HasPlace) (members : List (String × Json)) (v : Json) :
    Path.set (.obj members) q.jsonPath v = .ok (Path.write v q.segments (.obj members)) := by
  obtain ⟨name, rest, hparse⟩ := place
  rw [segments, hparse, Path.set_obj hparse]

/-- A value that was written at the place of a question stands there. -/
theorem eq_write_of_set (h : Path.set document q.jsonPath v = .ok document') :
    document' = Path.write v q.segments document := by
  obtain ⟨segments, hparse, rfl⟩ := Path.exists_write_of_set h
  rw [Question.segments, hparse]

/-- What is written at the place of a question is an object. -/
theorem HasPlace.exists_write_eq (place : q.HasPlace) (v document : Json) :
    ∃ members, Path.write v q.segments document = .obj members := by
  obtain ⟨name, rest, hparse⟩ := place
  rw [segments, hparse]
  exact ⟨_, rfl⟩

/-- At independent paths segments part. -/
theorem HasPlace.apart {q' : Question} (place : q.HasPlace) (place' : q'.HasPlace)
    (h : Path.Independent q.jsonPath q'.jsonPath) : Path.Apart q.segments q'.segments := by
  obtain ⟨name, rest, hparse⟩ := place
  obtain ⟨name', rest', hparse'⟩ := place'
  rw [segments, segments, hparse, hparse']
  exact h _ _ hparse hparse'

theorem reordered_fill (h : Reordered document document') (q : Question) (answer? : Option Json) :
    Reordered (q.fill answer? document) (q.fill answer? document') := by
  cases answer? with
  | some v => exact Path.reordered_write h v q.segments
  | none => exact h

theorem reordered_fillAll (h : Reordered document document') (f : Question → Option Json)
    (questions : List Question) :
    Reordered (fillAll f questions document) (fillAll f questions document') := by
  induction questions generalizing document document' with
  | nil => exact h
  | cons q rest ih => exact ih (reordered_fill h q (f q))

theorem fillAll_congr (h : ∀ q ∈ questions, f q = f' q) (document : Json) :
    fillAll f questions document = fillAll f' questions document := by
  induction questions generalizing document with
  | nil => rfl
  | cons q rest ih =>
    obtain ⟨hq, hrest⟩ := List.forall_mem_cons.1 h
    rw [fillAll, fillAll, hq, ih hrest]

/-- A new answer to a question replaces the one that was filled in. -/
theorem write_fill (q : Question) (v : Json) (answer? : Option Json) (document : Json) :
    Path.write v q.segments (q.fill answer? document) = Path.write v q.segments document := by
  cases answer? with
  | some w => exact Path.write_write v w q.segments document
  | none => rfl

/-- An answer may be written before or behind the answers to questions whose paths part from its
own. -/
theorem reordered_write_fillAll_of_apart
    (apart : ∀ q' ∈ questions, Path.Apart q.segments q'.segments) (v document : Json) :
    Reordered (Path.write v q.segments (fillAll f questions document))
      (fillAll f questions (Path.write v q.segments document)) := by
  induction questions generalizing document with
  | nil => exact .refl _
  | cons q' rest ih =>
    obtain ⟨hq', hrest⟩ := List.forall_mem_cons.1 apart
    refine (ih hrest _).trans (reordered_fillAll ?_ f rest)
    cases hanswer : f q' with
    | some w => exact Path.reordered_write_comm hq' v w document
    | none => exact .refl _

/-- An answer that is written behind all others gives what filling it in at its turn gives, up to
order. -/
theorem reordered_write_fillAll (name : Assoc.IsName q.fieldKey)
    (distinct : questions.Pairwise fun q q' => (q.fieldKey == q'.fieldKey) = false)
    (apart : questions.Pairwise fun q q' => Path.Apart q.segments q'.segments)
    (hq : q ∈ questions) (hv : f' q = some v)
    (others : ∀ q' ∈ questions, (q.fieldKey == q'.fieldKey) = false → f' q' = f q')
    (document : Json) :
    Reordered (Path.write v q.segments (fillAll f questions document))
      (fillAll f' questions document) := by
  induction questions generalizing document with
  | nil => cases hq
  | cons q' rest ih =>
    obtain ⟨hdistinct, distinct⟩ := List.pairwise_cons.1 distinct
    obtain ⟨hapart, apart⟩ := List.pairwise_cons.1 apart
    obtain ⟨hother, hothers⟩ := List.forall_mem_cons.1 others
    rcases List.mem_cons.1 hq with rfl | hq
    · -- the new answer passes by all later ones and replaces its predecessor
      have hrest : ∀ r ∈ rest, f r = f' r := fun r hr => (hothers r hr (hdistinct r hr)).symm
      rw [fillAll, fillAll, hv, ← fillAll_congr hrest]
      refine (reordered_write_fillAll_of_apart hapart v _).trans ?_
      rw [write_fill]
      exact .refl _
    · have hne : (q.fieldKey == q'.fieldKey) = false := (name.symm _).trans (hdistinct q hq)
      rw [fillAll, fillAll, hother hne]
      exact ih distinct apart hq hothers _

end Question

namespace State

variable {values : Fields} {status : Assoc Json FieldStatus} {questions : List Question}

/-- The answer to a question: the value of its field, if it was given. -/
def answer? (values : Fields) (status : Assoc Json FieldStatus) (q : Question) : Option Json :=
  if (Assoc.valueAt? q.fieldKey status).getD .unset = .answered then
    some ((Assoc.valueAt? q.fieldKey values).getD .null)
  else none

theorem answer?_congr {values' : Fields} {status' : Assoc Json FieldStatus} {q : Question}
    (hvalue : Assoc.valueAt? q.fieldKey values = Assoc.valueAt? q.fieldKey values')
    (hstatus : Assoc.valueAt? q.fieldKey status = Assoc.valueAt? q.fieldKey status') :
    answer? values status q = answer? values' status' q := by
  rw [answer?, answer?, hvalue, hstatus]

/-- Building a document fills in the answers. -/
theorem writeAnswered_eq (places : ∀ q ∈ questions, q.HasPlace)
    (isKey : ∀ q ∈ questions, q.fieldKey.isKey = true) (members : List (String × Json)) :
    writeAnswered values status questions (.obj members) =
      .ok (Question.fillAll (answer? values status) questions (.obj members)) := by
  induction questions generalizing members with
  | nil => rfl
  | cons q rest ih =>
    obtain ⟨hplace, places⟩ := List.forall_mem_cons.1 places
    obtain ⟨hkey, isKey⟩ := List.forall_mem_cons.1 isKey
    rw [writeAnswered, (Json.asKey_eq_ok_iff _ _).2 ⟨hkey, rfl⟩, Outcome.ok_bind,
      Question.fillAll, answer?]
    by_cases hgiven : (Assoc.valueAt? q.fieldKey status).getD .unset = .answered
    · obtain ⟨members', hwrite⟩ := hplace.exists_write_eq
        ((Assoc.valueAt? q.fieldKey values).getD .null) (.obj members)
      rw [if_pos ⟨hgiven, hplace.jsonPath_ne⟩, if_pos hgiven, hplace.set_obj, Outcome.ok_bind,
        Question.fill, hwrite]
      exact ih places isKey members'
    · rw [if_neg fun h => hgiven h.1, if_neg hgiven]
      exact ih places isKey members

/-- A document can be built only when the fields of questions are scalars. -/
theorem isKey_of_writeAnswered {document document' : Json}
    (h : writeAnswered values status questions document = .ok document') :
    ∀ q ∈ questions, q.fieldKey.isKey = true := by
  induction questions generalizing document with
  | nil => exact nofun
  | cons q rest ih =>
    obtain ⟨key, hkey, h⟩ := Outcome.bind_eq_ok_iff.1 h
    refine List.forall_mem_cons.2 ⟨((Json.asKey_eq_ok_iff _ _).1 hkey).1, ?_⟩
    split at h
    · obtain ⟨written, -, h⟩ := Outcome.bind_eq_ok_iff.1 h
      exact ih h
    · exact ih h

end State

/-- The questions of a catalog have different fields and independent paths, and none of the fields
is computed. -/
structure Catalog.FillsApart (c : Catalog) : Prop where
  /-- The fields are different. -/
  fields : c.questions.Pairwise fun e d => (e.2.fieldKey == d.2.fieldKey) = false
  /-- The paths are independent. -/
  paths : c.questions.Pairwise fun e d => Path.Independent e.2.jsonPath d.2.jsonPath
  /-- No field is computed. -/
  uncomputed : ∀ e ∈ c.questions, ∀ u ∈ c.computedVars, (u.target == e.2.fieldKey) = false

instance (c : Catalog) : Decidable c.FillsApart :=
  decidable_of_iff
    (c.questions.Pairwise (fun e d => (e.2.fieldKey == d.2.fieldKey) = false) ∧
      c.questions.Pairwise (fun e d => Path.Independent e.2.jsonPath d.2.jsonPath) ∧
      ∀ e ∈ c.questions, ∀ u ∈ c.computedVars, (u.target == e.2.fieldKey) = false)
    ⟨fun ⟨fields, paths, uncomputed⟩ => ⟨fields, paths, uncomputed⟩,
      fun ⟨fields, paths, uncomputed⟩ => ⟨fields, paths, uncomputed⟩⟩

end Questionnaire
