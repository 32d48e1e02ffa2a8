import Questionnaire.Proofs.State.Rebuilding
import Questionnaire.Proofs.State.Rederiving

/-!
# Computing again

Computed variables are written among the values that they are computed from, and they are not
stored.  So there are two ways of computing them again: over the values of a state as they are, and
over what the state leaves to store, where none of them is found any more.  In both each variable
has to come out as it stands in the state.

A variable that looks at itself or at a later one looks at a value from the last time, which is
there in the first case and not in the second.  When variables look only at earlier ones, both ways
lead back to the state, whatever was answered and derived before.

## Main Definitions

* `State.FromStored` - the states that answers and rules lead to from stored values
* `State.UpToDate` - the values of a state are computed, and provisional ones are the defaults
* `State.ComesOut` - computed variables come out as they stand among some values
* `State.Rebuilds` - what a state leaves to store leads back to its computed variables and modules

## Main Statements

* `State.FromStored.upToDate` - answers and rules keep a state up to date
* `State.refresh_eq_self_iff` - when bringing a state up to date again changes nothing
* `State.rebuilds_iff` - when what is stored leads back
* `State.recomputed_iff` - both, and why variables in order do

## Design Notes

The absent value may be given to a field that has a default.  It is stored, and the default stands
in for it again, so the modules are decided anew over the values with their defaults.
-/

namespace Questionnaire

/-- Entries under the same distinct keys are the same when every lookup is. -/
theorem Assoc.Regular.eq_of_valueAt? {α : Type} {m m' : Assoc Json α} (regular : Regular m)
    (regular' : Regular m') (hkeys : m.map (·.1) = m'.map (·.1))
    (h : ∀ key, valueAt? key m = valueAt? key m') : m = m' := by
  induction m generalizing m' with
  | nil => exact (List.map_eq_nil_iff.1 hkeys.symm).symm
  | cons e m ih =>
    cases m' with
    | nil => cases hkeys
    | cons e' m' =>
      obtain ⟨hfirst, hrest⟩ := List.cons.inj hkeys
      replace hfirst : e.1 = e'.1 := hfirst
      have self := (regular.isName e List.mem_cons_self).self
      have hvalue : e.2 = e'.2 := by
        have hkey := h e.1
        rw [valueAt?_cons, valueAt?_cons, ← hfirst, if_pos self, if_pos self] at hkey
        exact Option.some.inj hkey
      cases Prod.ext hfirst hvalue
      refine congrArg (e :: ·) (ih regular.of_cons regular'.of_cons hrest fun key => ?_)
      have hkey := h key
      rw [valueAt?_cons, valueAt?_cons] at hkey
      split at hkey
      · next hequal => rw [regular.valueAt?_eq_none hequal, regular'.valueAt?_eq_none hequal]
      · exact hkey

namespace State

variable {c : Catalog} {s s' : State} {q : Question} {v key : Json} {applied : Applied}

/-! ## States that are reached -/

/-- The states that answers and rules lead to from stored values. -/
inductive FromStored (c : Catalog) : State → Prop where
  /-- The state of stored values. -/
  | start {stored : Fields} {document : Option Json} {s : State} (regular : Assoc.Regular stored)
    (h : ofFields c stored document = .ok s) : FromStored c s
  /-- A value was given for a question. -/
  | value {s s' : State} {q : Question} {v : Json} {applied : Applied} (before : FromStored c s)
    (h : s.applyValue c q v = .ok (s', applied)) : FromStored c s'
  /-- A question was answered. -/
  | answer {s s' : State} {q : Question} {answer : String} {applied : Applied}
    (before : FromStored c s) (h : s.applyAnswer c q answer = .ok (.ok (s', applied))) :
    FromStored c s'
  /-- Rules were applied. -/
  | derived {s s' : State} {updates : Fields} (before : FromStored c s)
    (h : s.applyDerived c = .ok (s', updates)) : FromStored c s'

/-- All fields with a default have a value, and a provisional value is the default. -/
structure HasDefaults (c : Catalog) (s : State) : Prop where
  /-- The values stand under distinct scalars. -/
  regular : Assoc.Regular s.values
  /-- A field with a default has a value. -/
  complete : ∀ key, Assoc.hasKey key c.defaults = true → Assoc.hasKey key s.values = true
  /-- A provisional value that is not computed is the default. -/
  provisional : ∀ key, (∀ u ∈ c.computedVars, (u.target == key) = false) →
    s.statusOf key = .defaulted → Assoc.valueAt? key s.values = Assoc.valueAt? key c.defaults

/-- That, and the values are computed. -/
structure UpToDate (c : Catalog) (s : State) : Prop extends HasDefaults c s where
  /-- It was brought up to date. -/
  refreshed : ∃ t, refresh c t = .ok s

theorem HasDefaults.write (defaults : HasDefaults c s) (isKey : key.isKey = true)
    (v document : Json) : HasDefaults c { s.write key v with document := document } := by
  have name := Json.isName_of_isKey isKey
  refine ⟨defaults.regular.put isKey v, fun k hk => ?_, fun k uncomputed hstatus => ?_⟩
  · rw [Assoc.hasKey]
    show (Assoc.valueAt? k (Assoc.put key v s.values)).isSome = true
    rw [Assoc.valueAt?_put name]
    split
    · rfl
    · exact defaults.complete k hk
  · show Assoc.valueAt? k (Assoc.put key v s.values) = _
    rw [statusOf_eq_defaulted] at hstatus
    replace hstatus :
        Assoc.valueAt? k (Assoc.put key .answered s.status) = some .defaulted := hstatus
    rw [Assoc.valueAt?_put name] at hstatus ⊢
    split at hstatus
    · cases hstatus
    · next hother =>
      rw [if_neg hother]
      exact defaults.provisional k uncomputed ((statusOf_eq_defaulted s k).2 hstatus)

theorem HasDefaults.refresh (defaults : HasDefaults c s)
    (isKey : ∀ u ∈ c.computedVars, u.target.isKey = true) (h : refresh c s = .ok s') :
    UpToDate c s' := by
  obtain ⟨hvalues, -, -, hstatus⟩ := refresh_spec h
  refine ⟨⟨regular_compute isKey defaults.regular hvalues, fun key hkey => ?_,
    fun key uncomputed hprovisional => ?_⟩, s, h⟩
  · exact holds_compute (P := fun value => value.isSome = true) (fun _ => rfl) isKey hvalues
      (.inl (defaults.complete key hkey))
  · rw [valueAt?_compute isKey hvalues uncomputed]
    refine defaults.provisional key uncomputed ?_
    rwa [statusOf, ← hstatus]

/-- The values of a state of stored ones. -/
theorem upToDate_of_ofFields {stored : Fields} {document : Option Json} (loaded : c.Loaded)
    (isKey : ∀ u ∈ c.computedVars, u.target.isKey = true) (regular : Assoc.Regular stored)
    (h : ofFields c stored document = .ok s) : UpToDate c s := by
  have defaults := loaded.defaults.1
  rw [ofFields_eq] at h
  obtain ⟨d, -, hrefresh⟩ := Outcome.bind_eq_ok_iff.1 h
  refine HasDefaults.refresh ⟨regular_withDefaults defaults.isKey regular _, fun key hkey => ?_,
    fun key _ hstatus => ?_⟩ isKey hrefresh
  · obtain ⟨v, hv⟩ := Option.isSome_iff_exists.1 hkey
    show (Assoc.valueAt? key (completed c stored)).isSome = true
    rw [completed, valueAt?_withDefaults defaults, hv]
    split
    · rfl
    · next hlacks =>
      cases hstored : Assoc.valueAt? key stored with
      | none => exact absurd (by rw [Fields.lacks, hstored]; rfl) hlacks
      | some w => rfl
  · have hdefault := (statusOf_eq_defaulted _ key).1 hstatus
    obtain ⟨hlacks, hkey⟩ := (defaulted_withDefaults defaults stored key).1 hdefault
    show Assoc.valueAt? key (completed c stored) = _
    rw [completed, valueAt?_withDefaults defaults, if_pos hlacks]
    obtain ⟨v, hv⟩ := Option.isSome_iff_exists.1 hkey
    rw [hv, Option.some_or]

theorem HasDefaults.applyRules {todo : List DerivedRule} {t : State} {updates updates' : Fields}
    (defaults : HasDefaults c s) (h : applyRules c todo s updates = .ok (t, updates')) :
    HasDefaults c t := by
  induction todo generalizing s updates with
  | nil =>
    cases h
    exact defaults
  | cons r rest ih =>
    obtain ⟨⟨s₁, updates₁⟩, hrule, h⟩ := Outcome.bind_eq_ok_iff.1 h
    refine ih ?_ h
    rcases applyRule_cases hrule with ⟨-, rfl, -⟩ | ⟨document, isKey, rfl, -⟩
    · exact defaults
    · exact defaults.write isKey r.value document

/-- Answers and rules keep a state up to date. -/
theorem FromStored.upToDate (loaded : c.Loaded) (usable : c.usable = .ok ())
    (reached : FromStored c s) : UpToDate c s := by
  have isKey := Catalog.isKey_of_usable usable
  induction reached with
  | start regular h => exact upToDate_of_ofFields loaded isKey regular h
  | value _ h ih =>
    obtain ⟨hkey, -, document, -, hrefresh⟩ := applyValue_spec h
    exact (ih.toHasDefaults.write hkey _ document).refresh isKey hrefresh
  | answer _ h ih =>
    obtain ⟨v, -, hvalue⟩ := applyAnswer_spec h
    obtain ⟨hkey, -, document, -, hrefresh⟩ := applyValue_spec hvalue
    exact (ih.toHasDefaults.write hkey v document).refresh isKey hrefresh
  | derived _ h ih =>
    obtain ⟨t, hrules, ⟨-, rfl⟩ | ⟨-, hrefresh⟩⟩ := applyDerived_cases h
    · exact ih
    · exact (ih.toHasDefaults.applyRules hrules).refresh isKey hrefresh

/-! ## Coming out again -/

/-- What a computed variable comes out as over some values. -/
def result (values : Fields) (u : ComputedVar) : Except Fault Json := do
  let products ← termProducts values u.terms
  pure (Json.ofWhole (combine u.op products))

/-- Variables that are computed one after the other, from some values on, come out as they stand
among the values of a state.  One that is computed again later on need not. -/
def ComesOut (values : Fields) : Fields → List ComputedVar → Prop
  | _, [] => True
  | start, u :: rest => ∃ v, result start u = .ok v ∧
      ((∀ w ∈ rest, (w.target == u.target) = false) → Assoc.valueAt? u.target values = some v) ∧
      ComesOut values (Assoc.put u.target v start) rest

variable {values start start' computed : Fields} {vars : List ComputedVar}

theorem compute_cons (values : Fields) (u : ComputedVar) (rest : List ComputedVar) :
    compute values (u :: rest) = (do
      let v ← result values u
      compute (Assoc.put u.target v values) rest) := by
  rw [compute, result]
  cases termProducts values u.terms <;> rfl

/-- Variables come out as they stand if computing them leads to these values. -/
theorem comesOut_iff (isKey : ∀ u ∈ vars, u.target.isKey = true) :
    ComesOut values start vars ↔ ∃ computed, compute start vars = .ok computed ∧
      ∀ u ∈ vars, Assoc.valueAt? u.target computed = Assoc.valueAt? u.target values := by
  induction vars generalizing start with
  | nil => exact iff_of_true trivial ⟨start, rfl, nofun⟩
  | cons u rest ih =>
    obtain ⟨hu, isKey⟩ := List.forall_mem_cons.1 isKey
    have name := Json.isName_of_isKey hu
    rw [ComesOut, compute_cons]
    constructor
    · rintro ⟨v, hv, hlast, hrest⟩
      obtain ⟨computed, hcomputed, agree⟩ := (ih isKey).1 hrest
      rw [hv, Outcome.ok_bind]
      refine ⟨computed, hcomputed, List.forall_mem_cons.2 ⟨?_, agree⟩⟩
      by_cases hagain : ∃ w ∈ rest, (w.target == u.target) = true
      · obtain ⟨w, hw, hequal⟩ := hagain
        rw [← Assoc.valueAt?_congr name hequal, ← Assoc.valueAt?_congr name hequal]
        exact agree w hw
      · have apart := apart_of_no_target hagain
        rw [valueAt?_compute isKey hcomputed apart, Assoc.valueAt?_put name, if_pos name.self,
          hlast apart]
    · rintro ⟨computed, hcomputed, agree⟩
      obtain ⟨v, hv, hcomputed⟩ := Outcome.bind_eq_ok_iff.1 hcomputed
      obtain ⟨hu, hrest⟩ := List.forall_mem_cons.1 agree
      refine ⟨v, hv, fun apart => ?_, (ih isKey).2 ⟨computed, hcomputed, hrest⟩⟩
      rw [← hu, valueAt?_compute isKey hcomputed apart, Assoc.valueAt?_put name, if_pos name.self]

/-- Computing variables that are there already keeps all fields in their places. -/
theorem map_fst_compute (isKey : ∀ u ∈ vars, u.target.isKey = true)
    (there : ∀ u ∈ vars, Assoc.hasKey u.target values = true)
    (h : compute values vars = .ok computed) : computed.map (·.1) = values.map (·.1) := by
  induction vars generalizing values with
  | nil =>
    cases h
    rfl
  | cons u rest ih =>
    obtain ⟨hu, isKey⟩ := List.forall_mem_cons.1 isKey
    obtain ⟨hthere, there⟩ := List.forall_mem_cons.1 there
    rw [compute_cons] at h
    obtain ⟨v, -, h⟩ := Outcome.bind_eq_ok_iff.1 h
    obtain ⟨old, hold⟩ := Option.isSome_iff_exists.1 hthere
    rw [ih isKey (fun w hw => ?_) h, Assoc.map_fst_put hold]
    rw [Assoc.hasKey, Assoc.valueAt?_put (Json.isName_of_isKey hu)]
    split
    · rfl
    · exact there w hw

/-- Bringing a state up to date once more changes nothing exactly if its computed variables come out
over its own values as they stand there. -/
theorem UpToDate.refresh_eq_self_iff (upToDate : UpToDate c s)
    (isKey : ∀ u ∈ c.computedVars, u.target.isKey = true) :
    refresh c s = .ok s ↔ ComesOut s.values s.values c.computedVars := by
  obtain ⟨t, ht⟩ := upToDate.refreshed
  obtain ⟨hvalues, henabled, -, -⟩ := refresh_spec ht
  rw [comesOut_iff isKey]
  constructor
  · intro h
    exact ⟨s.values, (refresh_spec h).1, fun _ _ => rfl⟩
  · rintro ⟨computed, hcomputed, agree⟩
    -- all variables were computed before, so no field changes its place
    have there : ∀ u ∈ c.computedVars, Assoc.hasKey u.target s.values = true := fun u hu =>
      holds_compute (P := fun value => value.isSome = true) (fun _ => rfl) isKey hvalues
        (.inr ⟨u, hu, (Json.isName_of_isKey (isKey u hu)).self⟩)
    have hsame : computed = s.values := by
      refine (regular_compute isKey upToDate.regular hcomputed).eq_of_valueAt?
        upToDate.regular (map_fst_compute isKey there hcomputed) fun key => ?_
      by_cases hkey : ∃ u ∈ c.computedVars, (u.target == key) = true
      · obtain ⟨u, hu, hequal⟩ := hkey
        have name := Json.isName_of_isKey (isKey u hu)
        rw [name.symm] at hequal
        rw [Assoc.valueAt?_congr name hequal, Assoc.valueAt?_congr name hequal]
        exact agree u hu
      · exact valueAt?_compute isKey hcomputed (apart_of_no_target hkey)
    rw [hsame] at hcomputed
    exact refresh_eq_ok_iff.2 ⟨s.values, s.enabled, hcomputed, henabled, rfl⟩

/-! ## From what is stored -/

/-- The values that are not computed. -/
def uncomputed (c : Catalog) (s : State) : Fields :=
  s.values.filter fun e => !c.computedTargets.contains e.1

/-- What a state leaves to store, with its document, leads back to its computed variables and to its
modules. -/
def Rebuilds (c : Catalog) (s : State) : Prop :=
  ∃ s', ofFields c (s.collected c) (some s.document) = .ok s' ∧
    (∀ u ∈ c.computedVars, Assoc.valueAt? u.target s'.values = Assoc.valueAt? u.target s.values) ∧
    ∀ key, s'.enabled.contains key = s.enabled.contains key

theorem valueAt?_uncomputed (regular : Assoc.Regular s.values) (key : Json) :
    Assoc.valueAt? key (s.uncomputed c) =
      if c.computedTargets.contains key then none else Assoc.valueAt? key s.values := by
  have hfilter := Assoc.valueAt?_filter_key (p := fun k => !c.computedTargets.contains k)
    (k := key) (m := s.values) fun e he hequal => by
      have name := regular.isName e he
      rw [name.symm] at hequal
      rw [contains_congr name hequal]
  refine hfilter.trans ?_
  cases c.computedTargets.contains key <;> rfl

/-- Fields are completed one by one. -/
theorem valueAt?_completed_congr (defaults : Assoc.Regular c.defaults) {stored stored' : Fields}
    (h : Assoc.valueAt? key stored = Assoc.valueAt? key stored') :
    Assoc.valueAt? key (completed c stored) = Assoc.valueAt? key (completed c stored') := by
  rw [completed, completed, valueAt?_withDefaults defaults, valueAt?_withDefaults defaults,
    Fields.lacks_congr h, h]

/-- What is stored is completed to the same values as all that is not computed: a provisional value
is left out, and the default stands in for it. -/
theorem HasDefaults.valueAt?_stored (defaults : HasDefaults c s)
    (regular : Assoc.Regular c.defaults) (isKey : ∀ u ∈ c.computedVars, u.target.isKey = true)
    (key : Json) :
    Assoc.valueAt? key (completed c (s.collected c)) =
      Assoc.valueAt? key (completed c (s.uncomputed c)) := by
  have huncomputed := valueAt?_uncomputed (c := c) defaults.regular key
  cases hcomputed : c.computedTargets.contains key with
  | true =>
    refine valueAt?_completed_congr regular ?_
    rw [huncomputed, valueAt?_collected_eq defaults.regular, isKept, hcomputed]
    cases s.statusOf key == .defaulted <;> rfl
  | false =>
    have apart := (contains_computedTargets_eq_false_iff isKey key).1 hcomputed
    have hcollected := valueAt?_collected defaults.regular isKey apart
    rw [hcomputed, if_neg Bool.false_ne_true] at huncomputed
    by_cases hstatus : s.statusOf key = .defaulted
    · rw [if_pos hstatus] at hcollected
      rw [defaults.provisional key apart hstatus] at huncomputed
      have hlacks : (s.collected c).lacks key = true := by
        rw [Fields.lacks, hcollected]
        rfl
      rw [completed, completed, valueAt?_withDefaults regular, valueAt?_withDefaults regular,
        if_pos hlacks, hcollected, huncomputed, Option.or_none]
      cases Assoc.valueAt? key c.defaults <;> split <;> rfl
    · rw [if_neg hstatus] at hcollected
      exact valueAt?_completed_congr regular (hcollected.trans huncomputed.symm)

/-- Where computed variables come out as they stand, every field does, but for the defaults that
stand in for absent values. -/
theorem UpToDate.valueAt?_recomputed (upToDate : UpToDate c s) (regular : Assoc.Regular c.defaults)
    (isKey : ∀ u ∈ c.computedVars, u.target.isKey = true)
    (h : compute (completed c (s.uncomputed c)) c.computedVars = .ok computed)
    (agree : ∀ u ∈ c.computedVars,
      Assoc.valueAt? u.target computed = Assoc.valueAt? u.target s.values) (key : Json) :
    Assoc.valueAt? key computed = Assoc.valueAt? key (completed c s.values) := by
  by_cases hkey : ∃ u ∈ c.computedVars, (u.target == key) = true
  · obtain ⟨u, hu, hequal⟩ := hkey
    have name := Json.isName_of_isKey (isKey u hu)
    -- a computed value is a number, so no default stands in for it
    obtain ⟨t, ht⟩ := upToDate.refreshed
    obtain ⟨x, hx⟩ := holds_compute (P := fun value => ∃ x, value = some (Json.ofWhole x))
      (fun x => ⟨x, rfl⟩) isKey (refresh_spec ht).1 (.inr ⟨u, hu, name.self⟩)
    have hfilled : s.values.lacks u.target = false := by
      refine Fields.lacks_eq_false hx fun hnull => ?_
      have hanswered := Json.isAnswered_ofWhole x
      rw [hnull] at hanswered
      cases hanswered
    rw [name.symm] at hequal
    rw [Assoc.valueAt?_congr name hequal, Assoc.valueAt?_congr name hequal, agree u hu, completed,
      valueAt?_withDefaults regular, hfilled, if_neg Bool.false_ne_true]
  · have apart := apart_of_no_target hkey
    have hcomputed := (contains_computedTargets_eq_false_iff isKey key).2 apart
    rw [valueAt?_compute isKey h apart]
    refine valueAt?_completed_congr regular ?_
    rw [valueAt?_uncomputed upToDate.regular, hcomputed, if_neg Bool.false_ne_true]

/-- What is stored leads back exactly if computed variables come out as they stand over the other
values and the defaults, and the defaults that stand in for absent values change no module. -/
theorem UpToDate.rebuilds_iff (upToDate : UpToDate c s) (regular : Assoc.Regular c.defaults)
    (isKey : ∀ u ∈ c.computedVars, u.target.isKey = true) :
    Rebuilds c s ↔ ComesOut s.values (completed c (s.uncomputed c)) c.computedVars ∧
      ∃ enabled, enabledModules (completed c s.values) c.modules [] = .ok enabled ∧
        ∀ key, enabled.contains key = s.enabled.contains key := by
  have hstored := upToDate.valueAt?_stored regular isKey
  have modules {computed : Fields}
      (h : compute (completed c (s.uncomputed c)) c.computedVars = .ok computed)
      (agree : ∀ u ∈ c.computedVars,
        Assoc.valueAt? u.target computed = Assoc.valueAt? u.target s.values) :
      enabledModules computed c.modules [] = enabledModules (completed c s.values) c.modules [] :=
    enabledModules_congr (fun _ _ name _ =>
      upToDate.valueAt?_recomputed regular isKey h agree (.str name)) []
  rw [Rebuilds, ofFields_eq, documentOf, Outcome.ok_bind, comesOut_iff isKey]
  constructor
  · rintro ⟨s', h, agree, henabled⟩
    obtain ⟨hvalues, hmodules, -, -⟩ := refresh_spec h
    obtain ⟨computed, hcomputed, hsame⟩ :=
      compute_congr isKey (fun _ _ key _ => hstored key) hvalues
    have agree' : ∀ u ∈ c.computedVars,
        Assoc.valueAt? u.target computed = Assoc.valueAt? u.target s.values := fun u hu =>
      (hsame u.target (.inl (hstored _))).symm.trans (agree u hu)
    refine ⟨⟨computed, hcomputed, agree'⟩, s'.enabled, ?_, henabled⟩
    rw [← modules hcomputed agree', ← hmodules]
    exact enabledModules_congr (fun _ _ name _ => (hsame _ (.inl (hstored _))).symm) []
  · rintro ⟨⟨computed, hcomputed, agree⟩, enabled, henabled, hcontains⟩
    obtain ⟨computed', hcomputed', hsame⟩ :=
      compute_congr isKey (fun _ _ key _ => (hstored key).symm) hcomputed
    have hmodules : enabledModules computed c.modules [] = enabledModules computed' c.modules [] :=
      enabledModules_congr (fun _ _ name _ => hsame _ (.inl (hstored _).symm)) []
    rw [← modules hcomputed agree, hmodules] at henabled
    refine ⟨_, refresh_eq_ok_iff.2 ⟨computed', enabled, hcomputed', henabled, rfl⟩,
      fun u hu => ?_, hcontains⟩
    rw [← agree u hu]
    exact (hsame u.target (.inl (hstored _).symm)).symm

/-! ## Variables in order -/

/-- No field that has a default was given the absent value instead. -/
def KeepsDefaults (c : Catalog) (s : State) : Prop :=
  ∀ d ∈ c.defaults, Assoc.valueAt? d.1 s.values = some .null → d.2 = .null

/-- Then no default stands in for a value. -/
theorem HasDefaults.valueAt?_completed (defaults : HasDefaults c s)
    (regular : Assoc.Regular c.defaults) (keeps : KeepsDefaults c s) (key : Json) :
    Assoc.valueAt? key (completed c s.values) = Assoc.valueAt? key s.values := by
  rw [completed, valueAt?_withDefaults regular]
  split
  · next hlacks =>
    cases hdefault : Assoc.valueAt? key c.defaults with
    | none => rfl
    | some w =>
      obtain ⟨d, hd, hequal, rfl⟩ := Assoc.mem_of_valueAt? hdefault
      obtain ⟨v, hv⟩ := Option.isSome_iff_exists.1
        (defaults.complete key (by rw [Assoc.hasKey, hdefault]; rfl))
      -- the value that is there is the absent one, and so is the default
      rw [Fields.lacks, hv, Option.getD_some] at hlacks
      cases (Json.null_equal v).1 hlacks
      have name := regular.isName d hd
      rw [name.symm] at hequal
      have hsame := Assoc.valueAt?_congr name hequal s.values
      rw [hv, Option.some_or, keeps d hd (hsame.symm.trans hv)]
  · rfl

/-- Variables that look only at earlier ones come out as they stand, whatever stood under their
targets before. -/
theorem UpToDate.comesOut (upToDate : UpToDate c s) (inOrder : c.ComputesInOrder)
    (isKey : ∀ u ∈ c.computedVars, u.target.isKey = true)
    (h : ∀ key, (∀ u ∈ c.computedVars, (u.target == key) = false) →
      Assoc.valueAt? key s.values = Assoc.valueAt? key start) :
    ComesOut s.values start c.computedVars := by
  obtain ⟨t, ht⟩ := upToDate.refreshed
  obtain ⟨hvalues, -, -, -⟩ := refresh_spec ht
  obtain ⟨computed, hcomputed, agree⟩ := exists_compute_of_ordered isKey inOrder.own
    inOrder.ordered (fun key apart => by
      rw [← h key apart, valueAt?_compute isKey hvalues apart]) hvalues
  exact (comesOut_iff isKey).2 ⟨computed, hcomputed, fun u _ => (agree u.target).symm⟩

/-- Where variables look only at earlier ones, they can be computed again over the values of a state
as they are, and over what it leaves to store. -/
theorem UpToDate.recomputes (upToDate : UpToDate c s) (regular : Assoc.Regular c.defaults)
    (isKey : ∀ u ∈ c.computedVars, u.target.isKey = true) (inOrder : c.ComputesInOrder) :
    refresh c s = .ok s ∧ (KeepsDefaults c s → Rebuilds c s) := by
  refine ⟨(upToDate.refresh_eq_self_iff isKey).2 (upToDate.comesOut inOrder isKey fun _ _ => rfl),
    fun keeps => (upToDate.rebuilds_iff regular isKey).2 ⟨?_, s.enabled, ?_, fun _ => rfl⟩⟩
  · refine upToDate.comesOut inOrder isKey fun key apart => ?_
    have hcomputed := (contains_computedTargets_eq_false_iff isKey key).2 apart
    have huncomputed := valueAt?_uncomputed (c := c) upToDate.regular key
    rw [hcomputed, if_neg Bool.false_ne_true] at huncomputed
    rw [valueAt?_completed_congr regular huncomputed, upToDate.valueAt?_completed regular keeps]
  · obtain ⟨t, ht⟩ := upToDate.refreshed
    rw [← (refresh_spec ht).2.1]
    exact enabledModules_congr (fun _ _ name _ =>
      upToDate.valueAt?_completed regular keeps (.str name)) []

/-- In a state that answers and rules have led to, bringing it up to date again changes nothing
exactly if the computed variables come out over its own values as they stand there.  What it leaves
to store leads back to them and to the modules exactly if they come out over the other values and
the defaults, and no default for an absent value changes a module.  Variables that look only at
earlier ones do so, unless the absent value was given to a field with a default. -/
theorem recomputed_iff {c : Catalog} {s : State} (loaded : c.Loaded) (usable : c.usable = .ok ())
    (reached : FromStored c s) :
    (refresh c s = .ok s ↔ ComesOut s.values s.values c.computedVars) ∧
    (Rebuilds c s ↔ ComesOut s.values (completed c (s.uncomputed c)) c.computedVars ∧
      ∃ enabled, enabledModules (completed c s.values) c.modules [] = .ok enabled ∧
        ∀ key, enabled.contains key = s.enabled.contains key) ∧
    (c.ComputesInOrder → refresh c s = .ok s ∧ (KeepsDefaults c s → Rebuilds c s)) := by
  have upToDate := reached.upToDate loaded usable
  have isKey := Catalog.isKey_of_usable usable
  have defaults := loaded.defaults.1
  exact ⟨upToDate.refresh_eq_self_iff isKey, upToDate.rebuilds_iff defaults isKey,
    upToDate.recomputes defaults isKey⟩

/-- A catalog that asks for a rent, with some computed variables. -/
def asksRent (vars : List Json) : Json :=
  .obj [
    ("questions", .arr [
      .obj [("qid", .str "Q1"), ("field_key", .str "rent"), ("data_type", .str "number")]]),
    ("stages", .arr [.obj [("stage_key", .str "s"), ("question_ids", .arr [.str "Q1"])]]),
    ("engine_contract", .obj [("computed_vars", .arr vars)])]

/-- The deposit is twice the rent. -/
def deposit : Json :=
  .obj [("target", .str "deposit"), ("terms", .arr [
    .obj [("field", .str "rent"), ("factor", .int 2)]])]

/-- What is due is the rent and the deposit. -/
def due : Json := .obj [("target", .str "due"), ("terms", .arr [.str "rent", .str "deposit"])]

theorem wellFormed_asksRent_deposit_due : (asksRent [deposit, due]).WellFormed := by
  simp [asksRent, deposit, due]

/-- Where the deposit is computed before what is due, both are computed again as they were. -/
theorem recomputed_iff_deposit_due : ∃ c s, c.Loaded ∧ c.usable = .ok () ∧ FromStored c s ∧
    s.valueOf (.str "due") = .int 300 ∧ refresh c s = .ok s ∧ Rebuilds c s := by
  have evaluated : Outcome.Gives
      (Catalog.ofJson (asksRent [deposit, due]) "catalog.json") fun e =>
        Outcome.Gives e.1.usable (fun _ => True) ∧ e.1.ComputesInOrder ∧ e.1.defaults.length = 0 ∧
        ∃ q ∈ e.1.question? (.str "Q1"), Outcome.Gives (ofFields e.1 [] none) fun s₀ =>
          Outcome.Gives (s₀.applyValue e.1 q (.int 100)) fun a =>
            a.1.valueOf (.str "due") = .int 300 := by
    decide +kernel
  obtain ⟨⟨c, warnings⟩, hc, ⟨_, usable, -⟩, inOrder, hdefaults, q, -, s₀, hs₀, ⟨s, applied⟩,
    hvalue, hdue⟩ := evaluated
  have loaded : c.Loaded := ⟨_, "catalog.json", warnings, wellFormed_asksRent_deposit_due, hc⟩
  have reached : FromStored c s := .value (.start .nil hs₀) hvalue
  have keeps : KeepsDefaults c s := by
    rw [KeepsDefaults, List.length_eq_zero_iff.1 hdefaults]
    exact nofun
  obtain ⟨-, -, recomputes⟩ := recomputed_iff loaded usable reached
  exact ⟨c, s, loaded, usable, reached, hdue, (recomputes inOrder).1, (recomputes inOrder).2 keeps⟩

theorem wellFormed_asksRent_due_deposit : (asksRent [due, deposit]).WellFormed := by
  simp [asksRent, deposit, due]

/-- Where what is due is computed before the deposit, it leaves the deposit out at first.  When it
is computed again it finds the deposit from the last time, which is not stored. -/
theorem not_recomputed_due_deposit : ∃ c s s', c.Loaded ∧ c.usable = .ok () ∧ FromStored c s ∧
    FromStored c s' ∧ refresh c s ≠ .ok s ∧ ¬ Rebuilds c s' := by
  have evaluated : Outcome.Gives
      (Catalog.ofJson (asksRent [due, deposit]) "catalog.json") fun e =>
        Outcome.Gives e.1.usable (fun _ => True) ∧
        (∃ u ∈ e.1.computedVars, u.target = .str "due") ∧
        ∃ q ∈ e.1.question? (.str "Q1"), Outcome.Gives (ofFields e.1 [] none) fun s₀ =>
          Outcome.Gives (s₀.applyValue e.1 q (.int 100)) fun a =>
            a.1.valueOf (.str "due") = .int 100 ∧
            Outcome.Gives (refresh e.1 a.1) (fun t => t.valueOf (.str "due") = .int 300) ∧
            Outcome.Gives (a.1.applyValue e.1 q (.int 100)) fun a' =>
              a'.1.valueOf (.str "due") = .int 300 ∧
              Outcome.Gives (ofFields e.1 (a'.1.collected e.1) (some a'.1.document)) fun t =>
                t.valueOf (.str "due") = .int 100 := by
    decide +kernel
  obtain ⟨⟨c, warnings⟩, hc, ⟨_, usable, -⟩, ⟨u, hu, htarget⟩, q, -, s₀, hs₀, ⟨s, applied⟩, hvalue,
    hdue, ⟨t, hrefresh, hrefreshed⟩, ⟨s', applied'⟩, hvalue', hdue', t', hbuilt, hrebuilt⟩ :=
    evaluated
  have reached : FromStored c s := .value (.start .nil hs₀) hvalue
  refine ⟨c, s, s', ⟨_, "catalog.json", warnings, wellFormed_asksRent_due_deposit, hc⟩, usable,
    reached, .value reached hvalue', fun hsame => ?_, ?_⟩
  · cases hrefresh.symm.trans hsame
    cases hdue.symm.trans hrefreshed
  · rintro ⟨t'', hbuilt', agree, -⟩
    cases hbuilt.symm.trans hbuilt'
    have hsame : t'.valueOf (.str "due") = s'.valueOf (.str "due") :=
      congrArg (·.getD .null) (htarget ▸ agree u hu)
    rw [hdue', hrebuilt] at hsame
    cases hsame

end State

end Questionnaire
