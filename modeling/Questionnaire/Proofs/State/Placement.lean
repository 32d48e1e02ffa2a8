import Questionnaire.Proofs.Catalog.References
import Questionnaire.Proofs.Routing
import Questionnaire.Proofs.State.Filling
import Questionnaire.Proofs.State.Selection
import Questionnaire.State.Application

/-!
# Running an accepted catalog

Every question of an accepted catalog has a place that starts with a key, and such a place exists in
every document that is an object.  So a value is always written, and so is what rules write; what
can fail is only what values and keys of the wrong kind make fail.

## Main Definitions

* `Fault.isPathFault` - the failures of writing at a path
* `Outcome.SparesPaths` - a computation that does not fail in this way

## Main Statements

* `State.sparesPaths_applyValue`, `State.sparesPaths_applyDerived` - values and rules are written
* `Catalog.resolves_of_accepted` - no reference of an accepted catalog leads nowhere, and nothing
  that follows one does either
-/

namespace Questionnaire

/-- A failure of writing at a path: it has no segments, or does not fit the document. -/
def Fault.isPathFault : Fault → Bool
  | .emptyPath _ => true
  | .unfitRoot .. => true
  | _ => false

namespace Outcome

variable {α β : Type} {x : Except Fault α}

/-- A computation does not fail for a path. -/
def SparesPaths (x : Except Fault α) : Prop := ∀ e, x = .error e → e.isPathFault = false

theorem sparesPaths_ok (a : α) : SparesPaths (.ok a) := nofun

theorem sparesPaths_error {e : Fault} (h : e.isPathFault = false) :
    SparesPaths (.error e : Except Fault α) := by
  intro e' he'
  cases he'
  exact h

theorem SparesPaths.bind {k : α → Except Fault β} (hx : SparesPaths x)
    (hk : ∀ a, x = .ok a → SparesPaths (k a)) : SparesPaths (x >>= k) := by
  intro e he
  rcases bind_eq_error_iff.1 he with he | ⟨a, ha, he⟩
  · exact hx e he
  · exact hk a ha e he

theorem sparesPaths_mapM {g : α → Except Fault β} {xs : List α} (h : ∀ x ∈ xs, SparesPaths (g x)) :
    SparesPaths (xs.mapM g) := by
  induction xs with
  | nil => exact sparesPaths_ok []
  | cons x xs ih =>
    rw [List.mapM_cons]
    exact (h x List.mem_cons_self).bind fun _ _ =>
      (ih fun y hy => h y (List.mem_cons_of_mem x hy)).bind fun _ _ => sparesPaths_ok _

theorem sparesPaths_asKey (v : Json) : SparesPaths v.asKey := by
  unfold Json.asKey
  split
  · exact sparesPaths_ok v
  · exact sparesPaths_error rfl

theorem sparesPaths_number? (v : Json) : SparesPaths v.number? := by
  unfold Json.number?
  split
  · split
    · exact sparesPaths_ok _
    · exact sparesPaths_error rfl
  all_goals exact sparesPaths_ok _

end Outcome

namespace State

open Outcome

variable {c : Catalog}

/-! ## Bringing a state up to date -/

theorem sparesPaths_termValue (values : Fields) (keys : List Json) :
    SparesPaths (termValue values keys) := by
  induction keys with
  | nil => exact sparesPaths_ok _
  | cons key rest ih =>
    refine SparesPaths.bind ?_ fun v _ => (sparesPaths_number? v).bind fun x _ => ?_
    · exact (sparesPaths_asKey key).bind fun k _ => sparesPaths_ok _
    · cases x with
      | none => exact ih
      | some x =>
        dsimp only
        split
        · exact ih
        · exact sparesPaths_ok x

theorem sparesPaths_compute (values : Fields) (computed : List ComputedVar) :
    SparesPaths (compute values computed) := by
  induction computed generalizing values with
  | nil => exact sparesPaths_ok values
  | cons u rest ih =>
    refine SparesPaths.bind (sparesPaths_mapM fun t _ => ?_) fun products _ => ih _
    exact (sparesPaths_termValue values t.fields).bind fun x _ => sparesPaths_ok _

theorem sparesPaths_enabledModules (values : Fields) (modules : List CoverageModule)
    (found : List Json) : SparesPaths (enabledModules values modules found) := by
  induction modules generalizing found with
  | nil => exact sparesPaths_ok found
  | cons m rest ih =>
    unfold enabledModules
    split
    · exact (sparesPaths_asKey m.key).bind fun key _ => ih _
    · exact ih found

theorem sparesPaths_refresh (c : Catalog) (s : State) : SparesPaths (refresh c s) :=
  (sparesPaths_compute _ _).bind fun _ _ =>
    (sparesPaths_enabledModules _ _ _).bind fun _ _ => sparesPaths_ok _

/-! ## Writing -/

/-- A place of a catalog, or no place at all. -/
def IsPlace (path : String) : Prop :=
  path = "" ∨ ∃ q : Question, q.HasPlace ∧ q.jsonPath = path

/-- In an object a value is always written, and the document stays an object. -/
theorem exists_writeDocument {path : String} (place : IsPlace path)
    (members : List (String × Json)) (v : Json) :
    ∃ members', writeDocument (.obj members) path v = .ok (.obj members') := by
  unfold writeDocument
  split
  · exact ⟨members, rfl⟩
  · rename_i hne
    obtain ⟨q, hplace, rfl⟩ := place.resolve_left hne
    obtain ⟨members', hwrite⟩ := hplace.exists_write_eq v (.obj members)
    exact ⟨members', by rw [hplace.set_obj, hwrite]⟩

/-- A value that is given for a question with a place is written. -/
theorem sparesPaths_applyValue {q : Question} (place : q.HasPlace) {s : State}
    {members : List (String × Json)} (h : s.document = .obj members) (v : Json) :
    SparesPaths (s.applyValue c q v) := by
  obtain ⟨members', hwrite⟩ := exists_writeDocument (.inr ⟨q, place, rfl⟩) members v
  refine (sparesPaths_asKey q.fieldKey).bind fun key _ => ?_
  rw [h, hwrite]
  exact (sparesPaths_refresh _ _).bind fun _ _ => sparesPaths_ok _

theorem isPlace_rulePath? (sound : c.Sound) {r : DerivedRule} {path : String}
    (h : rulePath? c r = some path) : IsPlace path := by
  unfold rulePath? at h
  split at h
  · obtain ⟨q, hq, rfl⟩ := Option.map_eq_some_iff.1 h
    obtain ⟨e, he, rfl⟩ := Catalog.holds_of_question? hq
    exact .inr ⟨e.2, sound.places e he, rfl⟩
  · exact .inl (Option.some.inj h).symm

/-- A rule writes what it writes, and the document stays an object. -/
theorem applyRule_obj (sound : c.Sound) (r : DerivedRule) {s : State} (updates : Fields)
    {members : List (String × Json)} (h : s.document = .obj members) :
    SparesPaths (applyRule c r s updates) ∧ ∀ s' updates',
      applyRule c r s updates = .ok (s', updates') → ∃ members', s'.document = .obj members' := by
  have idle : SparesPaths (.ok (s, updates)) ∧ ∀ s' updates',
      Except.ok (s, updates) = (.ok (s', updates') : Except Fault (State × Fields)) →
        ∃ members', s'.document = .obj members' := by
    refine ⟨sparesPaths_ok _, fun s' updates' hs => ?_⟩
    cases hs
    exact ⟨members, h⟩
  unfold applyRule
  split
  · split
    · exact idle
    · rename_i path hpath
      obtain ⟨members', hwrite⟩ :=
        exists_writeDocument (isPlace_rulePath? sound hpath) members r.value
      rw [h, hwrite]
      refine ⟨(sparesPaths_asKey r.target).bind fun key _ => ?_, fun s' updates' hs => ?_⟩
      · split
        · exact idle.1
        · exact sparesPaths_ok _
      · obtain ⟨key, -, hs⟩ := bind_eq_ok_iff.1 hs
        split at hs
        · exact idle.2 s' updates' hs
        · cases hs
          exact ⟨members', rfl⟩
  · exact idle

theorem sparesPaths_applyRules (sound : c.Sound) (rules : List DerivedRule) {s : State}
    (updates : Fields) {members : List (String × Json)} (h : s.document = .obj members) :
    SparesPaths (applyRules c rules s updates) := by
  induction rules generalizing s updates members with
  | nil => exact sparesPaths_ok _
  | cons r rest ih =>
    obtain ⟨spares, hdocument⟩ := applyRule_obj sound r updates h
    refine spares.bind fun a ha => ?_
    obtain ⟨members', hmembers⟩ := hdocument a.1 a.2 ha
    exact ih a.2 hmembers

/-- What rules write is written. -/
theorem sparesPaths_applyDerived (sound : c.Sound) {s : State} {members : List (String × Json)}
    (h : s.document = .obj members) : SparesPaths (s.applyDerived c) := by
  refine (sparesPaths_applyRules sound c.derivedRules [] h).bind fun a _ => ?_
  dsimp only
  split
  · exact sparesPaths_ok _
  · refine (sparesPaths_refresh c a.1).bind fun s' _ => ?_
    split
    · exact sparesPaths_ok _
    · exact sparesPaths_error rfl

end State

namespace Catalog

variable {c : Catalog}

/-- The references of an accepted catalog are sound.  So selection goes through every question that
a stage lists, in every state whose document is an object values and rules find their places, and
routing leads only to processes that exist. -/
theorem resolves_of_accepted (accepted : c.Accepted) :
    c.Sound ∧
    (∀ stage ∈ c.stages, (c.questionsOf stage).map some = stage.questionIds.map c.question?) ∧
    (∀ (s : State) members, s.document = .obj members →
      (∀ q v, c.Holds q → Outcome.SparesPaths (s.applyValue c q v)) ∧
        Outcome.SparesPaths (s.applyDerived c)) ∧
    ∀ done fields key,
      (Routing.next c done fields = some key → (c.process? key).isSome = true) ∧
      ∀ finished, Routing.nextAfter c finished done fields = some key →
        (c.process? key).isSome = true := by
  have sound := sound_of_accepted accepted
  refine ⟨sound, fun stage => sound.questionsOf_eq, fun s members hdocument => ⟨?_, ?_⟩,
    fun done fields key => ⟨fun h => ?_, fun finished h => ?_⟩⟩
  · rintro q v ⟨e, he, rfl⟩
    exact State.sparesPaths_applyValue (sound.places e he) hdocument v
  · exact State.sparesPaths_applyDerived sound hdocument
  · exact (Routing.next_eq_some h).2.1
  · exact (Routing.nextAfter_eq_some accepted h).2.1

/-- A catalog with three sections, the first of which forces the third, and a reason to hand the
conversation over in the first. -/
def relay : Json :=
  .obj [
    ("questions", .arr [
      .obj [("qid", .str "Q1"), ("field_key", .str "help"), ("prompt", .str "Need help?")],
      .obj [("qid", .str "Q2"), ("field_key", .str "name"), ("prompt", .str "Name?")],
      .obj [("qid", .str "Q3"), ("field_key", .str "city"), ("prompt", .str "City?")]]),
    ("stages", .arr [
      .obj [("stage_key", .str "s1"), ("question_ids", .arr [.str "Q1"])],
      .obj [("stage_key", .str "s2"), ("question_ids", .arr [.str "Q2"])],
      .obj [("stage_key", .str "s3"), ("question_ids", .arr [.str "Q3"])]]),
    ("handoff_triggers", .arr [
      .obj [("trigger_key", .str "person"), ("when", .str "help = 'yes'")]]),
    ("processes", .arr [
      .obj [("process_key", .str "01"), ("stage_keys", .arr [.str "s1"]),
        ("forced_next", .str "03")],
      .obj [("process_key", .str "02"), ("stage_keys", .arr [.str "s2"])],
      .obj [("process_key", .str "03"), ("stage_keys", .arr [.str "s3"])]])]

/-- Three sections with a forced successor are accepted, and their references are sound. -/
theorem resolves_of_accepted_relay :
    ∃ c : Catalog, c.Accepted ∧ c.processes.length = 3 ∧ c.Sound := by
  have evaluated : (match Catalog.ofJson relay "catalog.json" with
      | .error _ => false
      | .ok (c, _) => c.processes.length = 3) = true := by
    decide +kernel
  split at evaluated
  · cases evaluated
  · rename_i c warnings hc
    have accepted : c.Accepted := ⟨relay, "catalog.json", warnings, hc⟩
    exact ⟨c, accepted, of_decide_eq_true evaluated, (resolves_of_accepted accepted).1⟩

end Catalog

end Questionnaire
