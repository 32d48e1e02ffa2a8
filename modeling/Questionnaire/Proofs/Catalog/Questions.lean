import Questionnaire.Catalog.Loading
import Questionnaire.Proofs.Lookup
import Questionnaire.Proofs.Outcome
import Questionnaire.Proofs.Text.Trimming

/-!
# The questions of an accepted catalog

Loading refuses a second question under an identifier that is taken, so the questions of a catalog
stand under their own identifiers, and looking one up finds it.  It also refuses a question whose
path does not start with a key, so every question has a place in the form document.

## Main Definitions

* `Assoc.FiledBy` - values that stand under keys of their own, all of them distinct
* `Question.HasPlace` - a question has a place in the form document
* `Catalog.Accepted` - a catalog that loading has accepted

## Main Statements

* `Catalog.filedBy_questions` - the questions of an accepted catalog stand under their identifiers
-/

namespace Questionnaire

namespace Assoc

variable {α : Type}

theorem beq_eq_false_of_hasKey {k : Json} {m : Assoc Json α} (h : hasKey k m = false)
    {e : Json × α} (he : e ∈ m) : (e.1 == k) = false := by
  induction m with
  | nil => cases he
  | cons d m ih =>
    unfold hasKey at h ih
    rw [valueAt?_cons] at h
    split at h
    · cases h
    · rename_i hd
      rcases List.mem_cons.1 he with rfl | he
      · exact Bool.eq_false_iff.2 hd
      · exact ih h he

/-- Replacing a value keeps the keys. -/
theorem map_fst_put {k : Json} {v : α} {m : Assoc Json α} (h : valueAt? k m = some v) (v' : α) :
    (put k v' m).map (·.1) = m.map (·.1) := by
  induction m with
  | nil => cases h
  | cons d m ih =>
    rw [valueAt?_cons] at h
    unfold put
    split at h
    · rename_i hd
      rw [if_pos hd]
      rfl
    · rename_i hd
      rw [if_neg hd, List.map_cons, ih h, List.map_cons]

/-- Replacing a value puts the new one in the place of the one that is found. -/
theorem mem_put {k : Json} {v v' : α} {m : Assoc Json α} (h : valueAt? k m = some v)
    {e : Json × α} (he : e ∈ put k v' m) :
    e ∈ m ∨ (e.2 = v' ∧ ∃ d ∈ m, d.1 = e.1 ∧ d.2 = v) := by
  induction m with
  | nil => cases h
  | cons d m ih =>
    rw [valueAt?_cons] at h
    unfold put at he
    split at h
    · rename_i hd
      rw [if_pos hd] at he
      rcases List.mem_cons.1 he with rfl | he
      · exact .inr ⟨rfl, d, List.mem_cons_self, rfl, Option.some.inj h⟩
      · exact .inl (List.mem_cons_of_mem d he)
    · rename_i hd
      rw [if_neg hd] at he
      rcases List.mem_cons.1 he with rfl | he
      · exact .inl List.mem_cons_self
      · rcases ih h he with he | ⟨hv, d', hd', hkey, hv'⟩
        · exact .inl (List.mem_cons_of_mem d he)
        · exact .inr ⟨hv, d', List.mem_cons_of_mem d hd', hkey, hv'⟩

/-- Values stand under keys that they carry themselves, and no two of the keys are equal. -/
structure FiledBy (key : α → Json) (m : Assoc Json α) : Prop where
  /-- Every value stands under its own key. -/
  own : ∀ e ∈ m, key e.2 = e.1
  /-- The keys may serve as keys. -/
  isKey : ∀ e ∈ m, e.1.isKey = true
  /-- No two keys are equal. -/
  distinct : m.Pairwise fun e d => (e.1 == d.1) = false

namespace FiledBy

variable {key : α → Json} {m : Assoc Json α}

theorem nil (key : α → Json) : FiledBy key ([] : Assoc Json α) where
  own _ h := by cases h
  isKey _ h := by cases h
  distinct := List.Pairwise.nil

/-- What is found stands under a key that equals the one that was looked for. -/
theorem of_cons {e : Json × α} (filed : FiledBy key (e :: m)) : FiledBy key m where
  own d hd := filed.own d (List.mem_cons_of_mem e hd)
  isKey d hd := filed.isKey d (List.mem_cons_of_mem e hd)
  distinct := (List.pairwise_cons.1 filed.distinct).2

/-- A value may be filed last under a key that is not taken. -/
theorem append_one (filed : FiledBy key m) {v : α} (hkey : (key v).isKey = true)
    (hfree : hasKey (key v) m = false) : FiledBy key (m ++ [(key v, v)]) := by
  constructor
  · intro e he
    rcases List.mem_append.1 he with he | he
    · exact filed.own e he
    · rw [List.mem_singleton.1 he]
  · intro e he
    rcases List.mem_append.1 he with he | he
    · exact filed.isKey e he
    · rw [List.mem_singleton.1 he]
      exact hkey
  · refine List.pairwise_append.2 ⟨filed.distinct, List.pairwise_singleton _ _, ?_⟩
    intro e he d hd
    rw [List.mem_singleton.1 hd]
    exact beq_eq_false_of_hasKey hfree he

/-- A value is found under its key. -/
theorem valueAt?_of_mem (filed : FiledBy key m) {e : Json × α} (he : e ∈ m) :
    valueAt? e.1 m = some e.2 := by
  induction m with
  | nil => cases he
  | cons d m ih =>
    rw [valueAt?_cons]
    rcases List.mem_cons.1 he with rfl | he
    · rw [if_pos (Json.isName_of_isKey (filed.isKey e List.mem_cons_self)).self]
    · rw [if_neg (Bool.eq_false_iff.1 ((List.pairwise_cons.1 filed.distinct).1 e he))]
      exact ih filed.of_cons he

/-- Under keys that are equal stands one value. -/
theorem eq_of_beq (filed : FiledBy key m) {e d : Json × α} (he : e ∈ m) (hd : d ∈ m)
    (h : (e.1 == d.1) = true) : e.2 = d.2 := by
  have hfound := filed.valueAt?_of_mem he
  have hname := Json.isName_of_isKey (filed.isKey d hd)
  rw [valueAt?_congr hname h, filed.valueAt?_of_mem hd] at hfound
  exact (Option.some.inj hfound).symm

/-- A value may be replaced by one of the same key. -/
theorem put (filed : FiledBy key m) {k : Json} {v v' : α} (hfound : valueAt? k m = some v)
    (hkey : key v' = key v) : FiledBy key (Assoc.put k v' m) := by
  have hkeys : (Assoc.put k v' m).map (·.1) = m.map (·.1) := map_fst_put hfound v'
  constructor
  · intro e he
    rcases mem_put hfound he with he | ⟨he, d, hd, hde, hdv⟩
    · exact filed.own e he
    · rw [he, hkey, ← hdv, filed.own d hd, hde]
  · intro e he
    have hmem : e.1 ∈ m.map (·.1) := by
      rw [← hkeys]
      exact List.mem_map_of_mem he
    obtain ⟨d, hd, hde⟩ := List.mem_map.1 hmem
    rw [← hde]
    exact filed.isKey d hd
  · have hdistinct : (m.map (·.1)).Pairwise fun a b => (a == b) = false :=
      List.pairwise_map.2 filed.distinct
    rw [← hkeys] at hdistinct
    exact List.pairwise_map.1 hdistinct

end FiledBy

end Assoc

/-- A question has a place in the form document: its path starts with a key. -/
def Question.HasPlace (q : Question) : Prop :=
  ∃ name rest, Path.parse q.jsonPath = .ok (.key name :: rest)

theorem Question.HasPlace.jsonPath_ne {q : Question} (place : q.HasPlace) : q.jsonPath ≠ "" := by
  intro hempty
  obtain ⟨name, rest, hparse⟩ := place
  rw [hempty] at hparse
  cases hparse

namespace Catalog

/-- A catalog that loading has accepted. -/
def Accepted (c : Catalog) : Prop :=
  ∃ data source warnings, Catalog.ofJson data source = .ok (c, warnings)

namespace Build

variable {α β : Type}

theorem run_bind_eq_ok_iff {x : Build α} {k : α → Build β} {s s'' : Findings} {b : β} :
    (x >>= k).run s = .ok (b, s'') ↔
      ∃ a s', x.run s = .ok (a, s') ∧ (k a).run s' = .ok (b, s'') := by
  rw [StateT.run_bind, Outcome.bind_eq_ok_iff]
  simp only [Prod.exists]

theorem run_lift_eq_ok_iff {x : Except Fault α} {s s' : Findings} {a : α} :
    (liftM x : Build α).run s = .ok (a, s') ↔ x = .ok a ∧ s' = s := by
  cases x with
  | error e => exact ⟨fun h => (by cases h), fun h => (by cases h.1)⟩
  | ok b =>
    constructor
    · intro h
      cases h
      exact ⟨rfl, rfl⟩
    · rintro ⟨h, rfl⟩
      cases h
      rfl

theorem run_reject_ne_some {p : Problem} {s s' : Findings} {a : α} :
    (reject p : Build (Option α)).run s ≠ .ok (some a, s') := by
  intro h
  cases h

end Build

/-- Options are not blank. -/
theorem trim_ne_empty_of_optionsOf {v : Json} {options : List String}
    (h : optionsOf v = .ok options) : ∀ o ∈ options, Text.trim o ≠ "" := by
  unfold optionsOf at h
  split at h
  · split at h
    · cases h
      exact fun o ho => Text.trim_ne_empty_of_mem_splitTrimmed ho
    · obtain ⟨items, -, h⟩ := Outcome.bind_eq_ok_iff.1 h
      cases h
      intro o ho
      rw [← Function.comp_def, ← List.map_map] at ho
      exact Text.trim_ne_empty_of_mem_filter ho
  · cases h
    exact nofun

theorem questionOf_eq_ok {item qid fieldKey : Json} {dataType : DataType}
    {requirement : Requirement} {jsonPath : String} {q : Question}
    (h : questionOf item qid fieldKey dataType requirement jsonPath = .ok q) :
    q.qid = qid ∧ q.jsonPath = jsonPath ∧ ∀ o ∈ q.options, Text.trim o ≠ "" := by
  unfold questionOf at h
  obtain ⟨_, -, h⟩ := Outcome.bind_eq_ok_iff.1 h
  obtain ⟨_, -, h⟩ := Outcome.bind_eq_ok_iff.1 h
  obtain ⟨_, -, h⟩ := Outcome.bind_eq_ok_iff.1 h
  obtain ⟨_, -, h⟩ := Outcome.bind_eq_ok_iff.1 h
  obtain ⟨_, -, h⟩ := Outcome.bind_eq_ok_iff.1 h
  obtain ⟨options, hoptions, h⟩ := Outcome.bind_eq_ok_iff.1 h
  repeat obtain ⟨_, -, h⟩ := Outcome.bind_eq_ok_iff.1 h
  cases h
  exact ⟨rfl, rfl, trim_ne_empty_of_optionsOf hoptions⟩

theorem startsWithKey_eq_true {path : String} (h : startsWithKey path = .ok true) :
    ∃ name rest, Path.parse path = .ok (.key name :: rest) := by
  obtain ⟨segments, hsegments, h⟩ := Outcome.bind_eq_ok_iff.1 h
  split at h
  · exact ⟨_, _, hsegments⟩
  · cases h

/-- A question that is read is made of its entry, under a filled identifier that is not taken and
with a path that starts with a key. -/
theorem exists_questionOf {before : Assoc Json Question} {index : Nat} {item : Json}
    {s s' : Findings} {q : Question}
    (h : (readQuestion before index item).run s = .ok (some q, s')) :
    ∃ qid fieldKey dataType requirement path, qid.isKey = true ∧
      Assoc.hasKey qid before = false ∧ qid.isFilled = true ∧ startsWithKey path = .ok true ∧
      questionOf item qid fieldKey dataType requirement path = .ok q := by
  unfold readQuestion at h
  obtain ⟨given, s₁, -, h⟩ := Build.run_bind_eq_ok_iff.1 h
  split at h
  · exact absurd h Build.run_reject_ne_some
  rename_i hfilled
  obtain ⟨qid, s₂, hqid, h⟩ := Build.run_bind_eq_ok_iff.1 h
  obtain ⟨hisKey, rfl⟩ := (Json.asKey_eq_ok_iff _ _).1 (Build.run_lift_eq_ok_iff.1 hqid).1
  split at h
  · exact absurd h Build.run_reject_ne_some
  rename_i hfree
  obtain ⟨fieldKey, s₃, -, h⟩ := Build.run_bind_eq_ok_iff.1 h
  split at h
  · exact absurd h Build.run_reject_ne_some
  obtain ⟨typeName, s₄, -, h⟩ := Build.run_bind_eq_ok_iff.1 h
  dsimp only at h
  split at h
  · exact absurd h Build.run_reject_ne_some
  obtain ⟨mode, s₅, -, h⟩ := Build.run_bind_eq_ok_iff.1 h
  obtain ⟨requiredIf, s₆, -, h⟩ := Build.run_bind_eq_ok_iff.1 h
  split at h
  · exact absurd h Build.run_reject_ne_some
  obtain ⟨jsonPath, s₇, -, h⟩ := Build.run_bind_eq_ok_iff.1 h
  obtain ⟨path, s₈, -, h⟩ := Build.run_bind_eq_ok_iff.1 h
  obtain ⟨isPath, s₉, hpath, h⟩ := Build.run_bind_eq_ok_iff.1 h
  split at h
  · exact absurd h Build.run_reject_ne_some
  rename_i hstarts
  obtain ⟨q', s', hq, h⟩ := Build.run_bind_eq_ok_iff.1 h
  cases h
  have hplace := (Build.run_lift_eq_ok_iff.1 hpath).1
  rw [show isPath = true by simpa using hstarts] at hplace
  exact ⟨_, _, _, _, _, hisKey, Bool.eq_false_iff.2 hfree, by simpa using hfilled, hplace,
    (Build.run_lift_eq_ok_iff.1 hq).1⟩

/-- A question that is read has a filled identifier that is not taken, a place, and no blank
options. -/
theorem readQuestion_eq_some {before : Assoc Json Question} {index : Nat} {item : Json}
    {s s' : Findings} {q : Question}
    (h : (readQuestion before index item).run s = .ok (some q, s')) :
    q.qid.isKey = true ∧ Assoc.hasKey q.qid before = false ∧ q.qid.isFilled = true ∧
      q.HasPlace ∧ ∀ o ∈ q.options, Text.trim o ≠ "" := by
  obtain ⟨qid, fieldKey, dataType, requirement, path, hisKey, hfree, hfilled, hplace, hq⟩ :=
    exists_questionOf h
  obtain ⟨hqid, hjson, hoptions⟩ := questionOf_eq_ok hq
  rw [hqid, Question.HasPlace, hjson]
  exact ⟨hisKey, hfree, hfilled, startsWithKey_eq_true hplace, hoptions⟩

/-- Questions that stand under their own filled identifiers, and have places and no blank
options. -/
structure FilesQuestions (questions : Assoc Json Question) : Prop where
  /-- They stand under their own identifiers. -/
  filed : Assoc.FiledBy Question.qid questions
  /-- Their identifiers are filled. -/
  filled : ∀ e ∈ questions, e.2.qid.isFilled = true
  /-- They have places. -/
  places : ∀ e ∈ questions, e.2.HasPlace
  /-- Their options are not blank. -/
  options : ∀ e ∈ questions, ∀ o ∈ e.2.options, Text.trim o ≠ ""

theorem filesQuestions_readQuestions {before questions : Assoc Json Question} {index : Nat}
    {items : List Json} {s s' : Findings} (files : FilesQuestions before)
    (h : (readQuestions before index items).run s = .ok (questions, s')) :
    FilesQuestions questions := by
  induction items generalizing before index s with
  | nil =>
    cases h
    exact files
  | cons item rest ih =>
    obtain ⟨q?, s₁, hq, h⟩ := Build.run_bind_eq_ok_iff.1 h
    cases q? with
    | none => exact ih files h
    | some q =>
      obtain ⟨hkey, hfree, hfilled, hplace, hoptions⟩ := readQuestion_eq_some hq
      refine ih ⟨files.filed.append_one hkey hfree, ?_, ?_, ?_⟩ h
      · exact List.forall_mem_append.2 ⟨files.filled, List.forall_mem_singleton.2 hfilled⟩
      · exact List.forall_mem_append.2 ⟨files.places, List.forall_mem_singleton.2 hplace⟩
      · exact List.forall_mem_append.2 ⟨files.options, List.forall_mem_singleton.2 hoptions⟩

/-- A question that is placed in a stage keeps its identifier, its place and its options. -/
theorem FilesQuestions.put {questions : Assoc Json Question} (files : FilesQuestions questions)
    {k : Json} {q q' : Question} (hfound : Assoc.valueAt? k questions = some q)
    (hqid : q'.qid = q.qid) (hpath : q'.jsonPath = q.jsonPath) (hoptions : q'.options = q.options) :
    FilesQuestions (Assoc.put k q' questions) := by
  obtain ⟨d, hd, -, rfl⟩ := Assoc.mem_of_valueAt? hfound
  refine ⟨files.filed.put hfound hqid, fun e he => ?_, fun e he => ?_, fun e he => ?_⟩
  · rcases Assoc.mem_put hfound he with he | ⟨hvalue, -⟩
    · exact files.filled e he
    · rw [hvalue, hqid]
      exact files.filled d hd
  · rcases Assoc.mem_put hfound he with he | ⟨hvalue, -⟩
    · exact files.places e he
    · rw [hvalue, Question.HasPlace, hpath]
      exact files.places d hd
  · rcases Assoc.mem_put hfound he with he | ⟨hvalue, -⟩
    · exact files.options e he
    · rw [hvalue, hoptions]
      exact files.options d hd

theorem filesQuestions_placeQuestions {stageKey : Json} {ids : List Json}
    {questions questions' : Assoc Json Question} (files : FilesQuestions questions)
    (h : placeQuestions stageKey ids questions = .ok questions') :
    FilesQuestions questions' := by
  induction ids generalizing questions with
  | nil =>
    cases h
    exact files
  | cons id rest ih =>
    obtain ⟨qid, -, h⟩ := Outcome.bind_eq_ok_iff.1 h
    cases hfound : Assoc.valueAt? qid questions with
    | none =>
      rw [hfound] at h
      exact ih files h
    | some q =>
      rw [hfound] at h
      refine ih ?_ h
      split
      · exact files
      · exact files.put hfound rfl rfl rfl

theorem filesQuestions_placeAll {stages : List Stage} {questions questions' : Assoc Json Question}
    (files : FilesQuestions questions)
    (h : placeAll stages questions = .ok questions') : FilesQuestions questions' := by
  induction stages generalizing questions with
  | nil =>
    cases h
    exact files
  | cons s rest ih =>
    obtain ⟨placed, hplaced, h⟩ := Outcome.bind_eq_ok_iff.1 h
    exact ih (filesQuestions_placeQuestions files hplaced) h

theorem filesQuestions_read {data : Json} {c : Catalog} {s s' : Findings}
    (h : (read data).run s = .ok (c, s')) : FilesQuestions c.questions := by
  unfold read at h
  obtain ⟨about, s₁, -, h⟩ := Build.run_bind_eq_ok_iff.1 h
  obtain ⟨name, s₂, -, h⟩ := Build.run_bind_eq_ok_iff.1 h
  obtain ⟨version, s₃, -, h⟩ := Build.run_bind_eq_ok_iff.1 h
  obtain ⟨contract, s₄, -, h⟩ := Build.run_bind_eq_ok_iff.1 h
  obtain ⟨defaults, s₅, -, h⟩ := Build.run_bind_eq_ok_iff.1 h
  obtain ⟨messages, s₆, -, h⟩ := Build.run_bind_eq_ok_iff.1 h
  obtain ⟨exempt, s₇, -, h⟩ := Build.run_bind_eq_ok_iff.1 h
  obtain ⟨items, s₈, -, h⟩ := Build.run_bind_eq_ok_iff.1 h
  obtain ⟨questions, s₉, hquestions, h⟩ := Build.run_bind_eq_ok_iff.1 h
  obtain ⟨items', s₁₀, -, h⟩ := Build.run_bind_eq_ok_iff.1 h
  obtain ⟨stages, s₁₁, -, h⟩ := Build.run_bind_eq_ok_iff.1 h
  obtain ⟨placed, s₁₂, hplaced, h⟩ := Build.run_bind_eq_ok_iff.1 h
  -- what is read after the questions does not change them
  have hrest : c.questions = placed := by
    repeat obtain ⟨_, _, -, h⟩ := Build.run_bind_eq_ok_iff.1 h
    cases h
    rfl
  rw [hrest]
  have files := filesQuestions_readQuestions
    ⟨.nil Question.qid, by simp, by simp, by simp⟩ hquestions
  exact filesQuestions_placeAll files (Build.run_lift_eq_ok_iff.1 hplaced).1

/-- The catalog that loading accepts is the one that was read. -/
theorem exists_read {data : Json} {source : String} {c : Catalog} {warnings : List Warning}
    (h : ofJson data source = .ok (c, warnings)) : ∃ s s', (read data).run s = .ok (c, s') := by
  unfold ofJson at h
  split at h
  · split at h
    · cases h
    · rename_i c' findings hbuild
      split at h
      · cases h
        obtain ⟨c', s₁, hread, hrest⟩ := Build.run_bind_eq_ok_iff.1 hbuild
        obtain ⟨_, s₂, -, hrest⟩ := Build.run_bind_eq_ok_iff.1 hrest
        cases hrest
        exact ⟨_, _, hread⟩
      · cases h
  · cases h

theorem filesQuestions_of_accepted {c : Catalog} (accepted : c.Accepted) :
    FilesQuestions c.questions := by
  obtain ⟨data, source, warnings, h⟩ := accepted
  obtain ⟨s, s', hread⟩ := exists_read h
  exact filesQuestions_read hread

/-- The questions of an accepted catalog stand under their own identifiers. -/
theorem filedBy_questions {c : Catalog} (accepted : c.Accepted) :
    Assoc.FiledBy Question.qid c.questions :=
  (filesQuestions_of_accepted accepted).filed

end Catalog

end Questionnaire
