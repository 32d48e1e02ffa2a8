import Questionnaire.Proofs.Json.Path
import Questionnaire.Proofs.Regular
import Questionnaire.Proofs.State.Applying

/-!
# What derived rules write

Derived rules only add to a state: its values are those that the rules wrote, and behind them the
ones from before.

## Main Definitions

* `State.Derives` - what a state and the values that rules wrote have to do with the state before
* `State.SparesPlace` - no rule writes into the document at a place
* `State.Settles` - what an answer and the rules behind it have made of a state

## Main Statements

* `State.derives_applyRule` - one rule
* `State.derives_applyRules` - all rules
* `State.get_of_applyDerived` - a place that rules spare
* `State.settles_of_apply` - an answer and the rules behind it
-/

namespace Questionnaire

namespace State

/-- A state that rules have reached from another one, with the values that they wrote. -/
structure Derives (rules : List DerivedRule) (before after : State) (updates : Fields) : Prop where
  /-- The values that were written stand before the ones from before. -/
  values : ∀ key, Assoc.valueAt? key after.values =
    (Assoc.valueAt? key updates).or (Assoc.valueAt? key before.values)
  /-- What was written counts as answered. -/
  status : ∀ key, Assoc.valueAt? key after.status =
    if Assoc.hasKey key updates then some .answered else Assoc.valueAt? key before.status
  /-- What was written stands under distinct scalars. -/
  regular : Assoc.Regular updates
  /-- Only the targets of rules were written. -/
  targets : ∀ e ∈ updates, ∃ r ∈ rules, r.target = e.1
  /-- Every value that was written is that of a rule with this target. -/
  source : ∀ key v, Assoc.valueAt? key updates = some v →
    ∃ r ∈ rules, r.target.isKey = true ∧ (r.target == key) = true ∧ r.value = v
  /-- The document stays a document. -/
  document : (∀ r ∈ rules, r.value.WellFormed) → before.document.IsDocument →
    after.document.IsDocument

theorem derives_refl (rules : List DerivedRule) (s : State) : Derives rules s s [] where
  values key := rfl
  status key := rfl
  regular := .nil
  targets e he := by cases he
  source key v h := by cases h
  document _ h := h

theorem isDocument_writeDocument {document document' value : Json} {path : String}
    (hdocument : document.IsDocument) (hvalue : value.WellFormed)
    (h : writeDocument document path value = .ok document') : document'.IsDocument := by
  unfold writeDocument at h
  split at h
  · cases h
    exact hdocument
  · exact Path.isDocument_set hdocument hvalue h

variable {c : Catalog} {rules : List DerivedRule} {before s s' : State} {updates updates' : Fields}

/-- What one more rule does. -/
theorem derives_applyRule {r : DerivedRule} (hr : r ∈ rules)
    (derives : Derives rules before s updates)
    (h : applyRule c r s updates = .ok (s', updates')) : Derives rules before s' updates' := by
  unfold applyRule at h
  split at h
  · split at h
    · cases h
      exact derives
    · obtain ⟨key, hkey, h⟩ := Outcome.bind_eq_ok_iff.1 h
      obtain ⟨isKey, rfl⟩ := (Json.asKey_eq_ok_iff _ _).1 hkey
      have name := Json.isName_of_isKey isKey
      split at h
      · cases h
        exact derives
      · obtain ⟨document, hdocument, h⟩ := Outcome.bind_eq_ok_iff.1 h
        cases h
        refine ⟨fun key => ?values, fun key => ?status, derives.regular.put isKey _,
          fun e he => ?targets, fun key v hv => ?source, fun wellFormed hbefore => ?document⟩
        case values =>
          rw [write, Assoc.valueAt?_put name, Assoc.valueAt?_put name, derives.values]
          split <;> rfl
        case status =>
          rw [write, Assoc.valueAt?_put name, derives.status, Assoc.hasKey, Assoc.hasKey,
            Assoc.valueAt?_put name]
          split <;> rfl
        case targets =>
          rcases Assoc.mem_put_or_key he with ⟨d, hd, hkey⟩ | hkey
          · rw [← hkey]
            exact derives.targets d hd
          · exact ⟨r, hr, hkey.symm⟩
        case source =>
          rw [Assoc.valueAt?_put name] at hv
          split at hv
          · rename_i hsame
            exact ⟨r, hr, isKey, hsame, Option.some.inj hv⟩
          · exact derives.source key v hv
        case document =>
          exact isDocument_writeDocument (derives.document wellFormed hbefore) (wellFormed r hr)
            hdocument
  · cases h
    exact derives

/-- Only the values of rules were written. -/
theorem Derives.given (derives : Derives rules before s updates) :
    ∀ e ∈ updates, ∃ r ∈ rules, r.value = e.2 := by
  intro e he
  obtain ⟨r, hr, -, -, hvalue⟩ := derives.source e.1 e.2 (derives.regular.valueAt?_of_mem he)
  exact ⟨r, hr, hvalue⟩

/-- What all rules do. -/
theorem derives_applyRules {todo : List DerivedRule} (htodo : ∀ r ∈ todo, r ∈ rules)
    (derives : Derives rules before s updates)
    (h : applyRules c todo s updates = .ok (s', updates')) : Derives rules before s' updates' := by
  induction todo generalizing s updates with
  | nil =>
    cases h
    exact derives
  | cons r rest ih =>
    obtain ⟨⟨s₁, updates₁⟩, hrule, h⟩ := Outcome.bind_eq_ok_iff.1 h
    exact ih (fun r' hr' => htodo r' (List.mem_cons_of_mem r hr'))
      (derives_applyRule (htodo r List.mem_cons_self) derives hrule) h

/-- What was written by the rules of a catalog. -/
theorem derives_of_applyDerived (h : s.applyDerived c = .ok (s', updates)) :
    ∃ s₁, Derives c.derivedRules s s₁ updates := by
  obtain ⟨s₁, hrules, -⟩ := applyDerived_cases h
  exact ⟨s₁, derives_applyRules (fun r hr => hr) (derives_refl c.derivedRules s) hrules⟩

/-! ## Places that rules spare -/

/-- No rule writes into the document at a place that depends on a path. -/
def SparesPlace (c : Catalog) (path : String) : Prop :=
  ∀ r ∈ c.derivedRules, ∀ place ∈ rulePath? c r, place = "" ∨ Path.Independent place path

instance (c : Catalog) (path : String) : Decidable (SparesPlace c path) :=
  inferInstanceAs (Decidable (∀ r ∈ c.derivedRules, ∀ place ∈ rulePath? c r,
    place = "" ∨ Path.Independent place path))

section

variable {path : String} (spares : SparesPlace c path)

include spares

theorem get_of_applyRule {r : DerivedRule} (hr : r ∈ c.derivedRules)
    (h : applyRule c r s updates = .ok (s', updates')) :
    Path.get s'.document path = Path.get s.document path := by
  unfold applyRule at h
  split at h
  · split at h
    · cases h
      rfl
    · rename_i place hplace
      obtain ⟨key, -, h⟩ := Outcome.bind_eq_ok_iff.1 h
      split at h
      · cases h
        rfl
      · obtain ⟨document, hdocument, h⟩ := Outcome.bind_eq_ok_iff.1 h
        cases h
        unfold writeDocument at hdocument
        split at hdocument
        · cases hdocument
          rfl
        · rename_i hplaced
          exact Path.get_set_of_independent hdocument
            ((spares r hr place hplace).resolve_left hplaced)
  · cases h
    rfl

theorem get_of_applyRules {todo : List DerivedRule} (htodo : ∀ r ∈ todo, r ∈ c.derivedRules)
    (h : applyRules c todo s updates = .ok (s', updates')) :
    Path.get s'.document path = Path.get s.document path := by
  induction todo generalizing s updates with
  | nil =>
    cases h
    rfl
  | cons r rest ih =>
    obtain ⟨⟨s₁, updates₁⟩, hrule, h⟩ := Outcome.bind_eq_ok_iff.1 h
    rw [ih (fun r' hr' => htodo r' (List.mem_cons_of_mem r hr')) h,
      get_of_applyRule spares (htodo r List.mem_cons_self) hrule]

/-- At a place that rules spare, the document keeps its value. -/
theorem get_of_applyDerived (h : s.applyDerived c = .ok (s', updates)) :
    Path.get s'.document path = Path.get s.document path := by
  obtain ⟨t, hrules, ⟨-, rfl⟩ | ⟨-, hrefresh⟩⟩ := applyDerived_cases h
  · rfl
  · obtain ⟨-, -, hdocument, -⟩ := refresh_spec hrefresh
    rw [hdocument, get_of_applyRules spares (fun r hr => hr) hrules]

end

/-! ## Answers and what follows from them -/

/-- A state after a value was given for a field, with what rules wrote then. -/
structure Settles (c : Catalog) (s : State) (key v : Json) (s' : State) (updates : Fields) :
    Prop where
  /-- The key is a scalar. -/
  isKey : key.isKey = true
  /-- The values are computed from those that were written. -/
  values : ∃ written, compute written c.computedVars = .ok s'.values ∧
    ∀ k, (∀ u ∈ c.computedVars, (u.target == k) = false) → Assoc.valueAt? k written =
      (Assoc.valueAt? k updates).or (Assoc.valueAt? k (Assoc.put key v s.values))
  /-- The modules are enabled by the values. -/
  enabled : enabledModules s'.values c.modules [] = .ok s'.enabled
  /-- What was written counts as answered. -/
  status : ∀ k, Assoc.valueAt? k s'.status = if Assoc.hasKey k updates then some .answered
    else Assoc.valueAt? k (Assoc.put key .answered s.status)
  /-- What rules wrote stands under distinct scalars. -/
  regular : Assoc.Regular updates
  /-- Rules wrote only their targets. -/
  targets : ∀ e ∈ updates, ∃ r ∈ c.derivedRules, r.target = e.1
  /-- Rules wrote only their values. -/
  given : ∀ e ∈ updates, ∃ r ∈ c.derivedRules, r.value = e.2
  /-- The document stays a document. -/
  document : (∀ r ∈ c.derivedRules, r.value.WellFormed) → v.WellFormed → s.document.IsDocument →
    s'.document.IsDocument

theorem settles_of_apply {q : Question} {v : Json} {s₁ : State} {applied : Applied}
    {updates : Fields} (isKey : ∀ u ∈ c.computedVars, u.target.isKey = true)
    (hvalue : s.applyValue c q v = .ok (s₁, applied))
    (hderived : s₁.applyDerived c = .ok (s', updates)) :
    applied.fieldKey = q.fieldKey ∧ applied.value = v ∧
      Settles c s q.fieldKey v s' updates := by
  obtain ⟨hisKey, rfl, document, hdocument, hrefresh⟩ := applyValue_spec hvalue
  obtain ⟨values, enabled, hvalues, henabled, rfl⟩ := refresh_eq_ok_iff.1 hrefresh
  refine ⟨rfl, rfl, ?_⟩
  obtain ⟨s₂, hrules, hended⟩ := applyDerived_cases hderived
  have derives := derives_applyRules (fun r hr => hr) (derives_refl c.derivedRules _) hrules
  rcases hended with ⟨rfl, rfl⟩ | ⟨-, hrefresh⟩
  · -- no rule wrote anything
    exact ⟨hisKey, ⟨_, hvalues, fun k _ => rfl⟩, henabled, fun k => rfl, .nil, nofun, nofun,
      fun _ hv hs => isDocument_writeDocument hs hv hdocument⟩
  · obtain ⟨values', enabled', hvalues', henabled', rfl⟩ := refresh_eq_ok_iff.1 hrefresh
    refine ⟨hisKey, ⟨_, hvalues', fun k apart => ?_⟩, henabled', derives.status,
      derives.regular, derives.targets, derives.given, fun hrules hv hs => ?_⟩
    · rw [derives.values k]
      dsimp only
      rw [valueAt?_compute isKey hvalues apart]
      rfl
    · exact derives.document hrules (isDocument_writeDocument hs hv hdocument)

end State

end Questionnaire
