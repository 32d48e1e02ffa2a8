import Questionnaire.Proofs.Condition.Names
import Questionnaire.Proofs.Outcome
import Questionnaire.Proofs.Regular
import Questionnaire.State.Basic

/-!
# Computed values

Computed variables and enabled modules depend only on the fields that they look at, so over values
that agree there they come out the same.

## Main Definitions

* `ComputedVar.reads` - the fields that a computed variable looks at

## Main Statements

* `State.valueAt?_compute` - only the targets of computed variables are written
* `State.holds_compute` - what is computed is a number
* `State.compute_congr` - computed variables depend only on the fields that they look at
* `State.enabledModules_congr` - enabled modules depend only on the fields in their conditions
* `State.refresh_eq_ok_iff` - what bringing a state up to date gives
-/

namespace Questionnaire

/-- The fields that a computed variable looks at. -/
def ComputedVar.reads (v : ComputedVar) : List Json := v.terms.flatMap (·.fields)

/-- The targets of computed variables are scalars in a catalog that can be used. -/
theorem Catalog.isKey_of_usable {c : Catalog} (usable : c.usable = .ok ()) :
    ∀ u ∈ c.computedVars, u.target.isKey = true := by
  intro u hu
  obtain ⟨targets, htargets, -⟩ := Outcome.bind_eq_ok_iff.1 usable
  obtain ⟨k, hk⟩ := Outcome.ok_of_mapM htargets u.target (List.mem_map_of_mem hu)
  exact ((Json.asKey_eq_ok_iff _ _).1 hk).1

namespace State

variable {values values' : Fields}

theorem at_congr {key : Json} (h : Assoc.valueAt? key values = Assoc.valueAt? key values') :
    values.at key = values'.at key := by
  unfold Fields.at
  cases hkey : key.asKey with
  | error e => rfl
  | ok k =>
    obtain ⟨-, rfl⟩ := (Json.asKey_eq_ok_iff _ _).1 hkey
    rw [Outcome.ok_bind, Outcome.ok_bind, h]

theorem termValue_congr {keys : List Json}
    (h : ∀ key ∈ keys, Assoc.valueAt? key values = Assoc.valueAt? key values') :
    termValue values keys = termValue values' keys := by
  induction keys with
  | nil => rfl
  | cons key rest ih =>
    rw [termValue, termValue, at_congr (h key List.mem_cons_self),
      ih fun key hkey => h key (List.mem_cons_of_mem _ hkey)]

theorem termProducts_congr {terms : List ComputedTerm}
    (h : ∀ key ∈ terms.flatMap (·.fields),
      Assoc.valueAt? key values = Assoc.valueAt? key values') :
    termProducts values terms = termProducts values' terms := by
  induction terms with
  | nil => rfl
  | cons t rest ih =>
    have hterm : termValue values t.fields = termValue values' t.fields :=
      termValue_congr fun key hkey => h key (List.mem_append_left _ hkey)
    have hrest := ih fun key hkey => h key (List.mem_append_right _ hkey)
    unfold termProducts at hrest ⊢
    rw [List.mapM_cons, List.mapM_cons, hterm, hrest]

variable {vars : List ComputedVar} {computed : Fields} {key : Json}

/-- A field that is no target is apart from every target. -/
theorem apart_of_no_target (h : ¬∃ v ∈ vars, (v.target == key) = true) :
    ∀ v ∈ vars, (v.target == key) = false :=
  fun v hv => Bool.eq_false_iff.2 fun hequal => h ⟨v, hv, hequal⟩

/-- Only the targets of computed variables are written. -/
theorem valueAt?_compute (isKey : ∀ v ∈ vars, v.target.isKey = true)
    (h : compute values vars = .ok computed)
    (apart : ∀ v ∈ vars, (v.target == key) = false) :
    Assoc.valueAt? key computed = Assoc.valueAt? key values := by
  induction vars generalizing values with
  | nil =>
    cases h
    rfl
  | cons v rest ih =>
    obtain ⟨products, -, h⟩ := Outcome.bind_eq_ok_iff.1 h
    have name := Json.isName_of_isKey (isKey v List.mem_cons_self)
    have hfirst := apart v List.mem_cons_self
    rw [ih (fun u hu => isKey u (List.mem_cons_of_mem v hu)) h
        fun u hu => apart u (List.mem_cons_of_mem v hu),
      Assoc.valueAt?_put name, if_neg (by rw [hfirst]; simp)]

theorem regular_compute (isKey : ∀ u ∈ vars, u.target.isKey = true)
    (regular : Assoc.Regular values) (h : compute values vars = .ok computed) :
    Assoc.Regular computed := by
  induction vars generalizing values with
  | nil =>
    cases h
    exact regular
  | cons u rest ih =>
    obtain ⟨hu, isKey⟩ := List.forall_mem_cons.1 isKey
    obtain ⟨products, -, h⟩ := Outcome.bind_eq_ok_iff.1 h
    exact ih isKey (regular.put hu _) h

/-- What is found among computed values is a number, or it was found before. -/
theorem valueAt?_compute_or {v : Json} (h : compute values vars = .ok computed)
    (hv : Assoc.valueAt? key computed = some v) :
    (∃ x, v = Json.ofWhole x) ∨ Assoc.valueAt? key values = some v := by
  induction vars generalizing values with
  | nil =>
    cases h
    exact .inr hv
  | cons u rest ih =>
    obtain ⟨products, -, h⟩ := Outcome.bind_eq_ok_iff.1 h
    rcases ih h with hnumber | hput
    · exact .inl hnumber
    · rcases Assoc.valueAt?_put_or hput with hwritten | hbefore
      · exact .inl ⟨_, hwritten⟩
      · exact .inr hbefore

/-- What holds of all numbers holds of what is computed, and it goes on holding of a field that it
held of before. -/
theorem holds_compute {P : Option Json → Prop} (number : ∀ x, P (some (Json.ofWhole x)))
    (isKey : ∀ u ∈ vars, u.target.isKey = true) (h : compute values vars = .ok computed)
    (hkey : P (Assoc.valueAt? key values) ∨ ∃ u ∈ vars, (u.target == key) = true) :
    P (Assoc.valueAt? key computed) := by
  induction vars generalizing values with
  | nil =>
    cases h
    rcases hkey with hkey | ⟨u, hu, -⟩
    · exact hkey
    · cases hu
  | cons u rest ih =>
    obtain ⟨hu, isKey⟩ := List.forall_mem_cons.1 isKey
    obtain ⟨products, -, h⟩ := Outcome.bind_eq_ok_iff.1 h
    refine ih isKey h ?_
    rw [Assoc.valueAt?_put (Json.isName_of_isKey hu)]
    split
    · exact .inl (number _)
    · next hother =>
      rcases hkey with hkey | ⟨w, hw, htarget⟩
      · exact .inl hkey
      · rcases List.mem_cons.1 hw with rfl | hw
        · exact absurd htarget hother
        · exact .inr ⟨w, hw, htarget⟩

/-- Over values that agree on the fields that computed variables look at, these come out the same,
and the results agree wherever the values do. -/
theorem compute_congr (isKey : ∀ v ∈ vars, v.target.isKey = true)
    (reads : ∀ v ∈ vars, ∀ key ∈ v.reads,
      Assoc.valueAt? key values = Assoc.valueAt? key values')
    (h : compute values vars = .ok computed) :
    ∃ computed', compute values' vars = .ok computed' ∧
      ∀ key, (Assoc.valueAt? key values = Assoc.valueAt? key values' ∨
          ∃ v ∈ vars, (v.target == key) = true) →
        Assoc.valueAt? key computed = Assoc.valueAt? key computed' := by
  induction vars generalizing values values' with
  | nil =>
    cases h
    refine ⟨values', rfl, fun key hkey => ?_⟩
    rcases hkey with hkey | ⟨v, hv, -⟩
    · exact hkey
    · cases hv
  | cons v rest ih =>
    obtain ⟨products, hproducts, h⟩ := Outcome.bind_eq_ok_iff.1 h
    have name := Json.isName_of_isKey (isKey v List.mem_cons_self)
    -- what was just computed is the same on both sides, whatever stood there
    have hput (x key : Json)
        (hkey : Assoc.valueAt? key values = Assoc.valueAt? key values' ∨ (v.target == key) = true) :
        Assoc.valueAt? key (Assoc.put v.target x values) =
          Assoc.valueAt? key (Assoc.put v.target x values') := by
      rw [Assoc.valueAt?_put name, Assoc.valueAt?_put name]
      split
      · rfl
      · rename_i htarget
        exact hkey.resolve_right htarget
    -- the variables that follow start from values that agree on what they look at
    obtain ⟨computed', hcomputed, hagree⟩ :=
      ih (fun u hu => isKey u (List.mem_cons_of_mem v hu))
        (fun u hu key hkey =>
          hput _ key (.inl (reads u (List.mem_cons_of_mem v hu) key hkey))) h
    refine ⟨computed', ?_, fun key hkey => hagree key ?_⟩
    · rw [compute, ← termProducts_congr (reads v List.mem_cons_self), hproducts]
      exact hcomputed
    · rcases hkey with hkey | ⟨u, hu, htarget⟩
      · exact .inl (hput _ key (.inl hkey))
      · rcases List.mem_cons.1 hu with rfl | hu
        · exact .inl (hput _ key (.inr htarget))
        · exact .inr ⟨u, hu, htarget⟩

/-- Variables that look only at earlier ones come out the same whatever stood under their targets
before. -/
theorem exists_compute_of_ordered (isKey : ∀ v ∈ vars, v.target.isKey = true)
    (own : ∀ v ∈ vars, ∀ key ∈ v.reads, (v.target == key) = false)
    (ordered : vars.Pairwise fun v u => ∀ key ∈ v.reads, (u.target == key) = false)
    (agree : ∀ key, (∀ v ∈ vars, (v.target == key) = false) →
      Assoc.valueAt? key values = Assoc.valueAt? key values')
    (h : compute values vars = .ok computed) :
    ∃ computed', compute values' vars = .ok computed' ∧
      ∀ key, Assoc.valueAt? key computed = Assoc.valueAt? key computed' := by
  induction vars generalizing values values' with
  | nil =>
    cases h
    exact ⟨values', rfl, fun key => agree key nofun⟩
  | cons v rest ih =>
    obtain ⟨hkey, isKey⟩ := List.forall_mem_cons.1 isKey
    obtain ⟨hown, own⟩ := List.forall_mem_cons.1 own
    obtain ⟨hlater, ordered⟩ := List.pairwise_cons.1 ordered
    obtain ⟨products, hproducts, h⟩ := Outcome.bind_eq_ok_iff.1 h
    have name := Json.isName_of_isKey hkey
    have hreads : ∀ key ∈ v.reads, Assoc.valueAt? key values = Assoc.valueAt? key values' :=
      fun key hread => agree key
        (List.forall_mem_cons.2 ⟨hown key hread, fun u hu => hlater u hu key hread⟩)
    rw [compute, ← termProducts_congr hreads, hproducts]
    refine ih isKey own ordered (fun key hfree => ?_) h
    -- the variable is written on both sides
    rw [Assoc.valueAt?_put name, Assoc.valueAt?_put name]
    split
    · rfl
    · next hne => exact agree key (List.forall_mem_cons.2 ⟨Bool.eq_false_iff.2 hne, hfree⟩)

/-- Enabled modules depend only on the fields that their conditions look at. -/
theorem enabledModules_congr {modules : List CoverageModule}
    (h : ∀ m ∈ modules, ∀ name ∈ Condition.reads m.enableIf,
      Assoc.valueAt? (.str name) values = Assoc.valueAt? (.str name) values')
    (found : List Json) :
    enabledModules values modules found = enabledModules values' modules found := by
  induction modules generalizing found with
  | nil => rfl
  | cons m rest ih =>
    have hholds : Condition.holds m.enableIf values = Condition.holds m.enableIf values' :=
      Condition.holds_congr (h m List.mem_cons_self)
    have ih := ih fun m' hm => h m' (List.mem_cons_of_mem m hm)
    unfold enabledModules
    rw [hholds]
    simp only [ih]

/-- What bringing a state up to date gives. -/
theorem refresh_eq_ok_iff {c : Catalog} {s s' : State} : refresh c s = .ok s' ↔
    ∃ values enabled, compute s.values c.computedVars = .ok values ∧
      enabledModules values c.modules [] = .ok enabled ∧
      s' = { s with values := values, enabled := enabled } := by
  constructor
  · intro h
    obtain ⟨values, hvalues, h⟩ := Outcome.bind_eq_ok_iff.1 h
    obtain ⟨enabled, henabled, h⟩ := Outcome.bind_eq_ok_iff.1 h
    cases h
    exact ⟨values, enabled, hvalues, henabled, rfl⟩
  · rintro ⟨values, enabled, hvalues, henabled, rfl⟩
    exact Outcome.bind_eq_ok_iff.2 ⟨values, hvalues,
      Outcome.bind_eq_ok_iff.2 ⟨enabled, henabled, rfl⟩⟩

/-- Bringing a state up to date leaves its document and the origin of its values as they are. -/
theorem refresh_spec {c : Catalog} {s s' : State} (h : refresh c s = .ok s') :
    compute s.values c.computedVars = .ok s'.values ∧
      enabledModules s'.values c.modules [] = .ok s'.enabled ∧
      s'.document = s.document ∧ s'.status = s.status := by
  obtain ⟨values, enabled, hvalues, henabled, rfl⟩ := refresh_eq_ok_iff.1 h
  exact ⟨hvalues, henabled, rfl, rfl⟩

end State

end Questionnaire
