import Questionnaire.Proofs.State.Agreement
import Questionnaire.Proofs.State.Derived
import Questionnaire.Proofs.State.Stored

/-!
# Loading what an answer has stored

An answer leads to a state, and what it stores is loaded again in the next turn.  Besides
bookkeeping the two hold the same: a field that was written holds what was written, and any other
field what was stored, its default, or what is computed.

## Main Definitions

* `State.given?` - the value that an answer and the rules behind it have given to a field
* `State.Stores` - stored values in which an answer stands before what was stored

## Main Statements

* `State.exists_agrees` - the state that is loaded agrees with the one that an answer has led to
-/

namespace Questionnaire

namespace State

variable {c : Catalog} {s s' : State} {key v : Json} {stored stored' updates : Fields}

/-- The value that an answer and the rules behind it have given to a field. -/
def given? (key v : Json) (updates : Fields) (k : Json) : Option Json :=
  if key == k then some v else Assoc.valueAt? k updates

theorem given?_eq_none (k : Json) : given? key v updates k = none ↔
    (key == k) = false ∧ Assoc.valueAt? k updates = none := by
  unfold given?
  split
  · rename_i h
    simp [h]
  · rename_i h
    simp [h]

theorem given?_ne_null (hv : v ≠ .null) (hupdates : ∀ e ∈ updates, e.2 ≠ .null) {k x : Json}
    (h : given? key v updates k = some x) : x ≠ .null := by
  unfold given? at h
  split at h
  · cases h
    exact hv
  · obtain ⟨e, he, -, rfl⟩ := Assoc.mem_of_valueAt? h
    exact hupdates e he

/-- Stored values in which an answer and what followed from it stand before what was stored. -/
structure Stores (key v : Json) (updates stored stored' : Fields) : Prop where
  /-- The answer is there. -/
  value : v ≠ .null
  /-- No rule writes the field of the answer. -/
  free : ∀ e ∈ updates, (e.1 == key) = false
  /-- Rules write no absent value. -/
  given : ∀ e ∈ updates, e.2 ≠ .null
  /-- What was written stands before what was stored. -/
  read : ∀ k, Bookkeeping.owns k = false → Assoc.valueAt? k stored' =
    (given? key v updates k).or (Assoc.valueAt? k stored)

namespace Stores

theorem ne_null (stores : Stores key v updates stored stored') (k x : Json)
    (h : given? key v updates k = some x) : x ≠ .null :=
  given?_ne_null stores.value stores.given h

/-- A field stays provisional until it is written. -/
theorem defaulted_iff (stores : Stores key v updates stored stored')
    (regular : Assoc.Regular c.defaults) (clear : c.KeepsClear) (k : Json) :
    Assoc.valueAt? k (completedStatus c stored') = some .defaulted ↔
      given? key v updates k = none ∧
        Assoc.valueAt? k (completedStatus c stored) = some .defaulted := by
  cases hfree : Bookkeeping.owns k with
  | true =>
    -- no default is bookkeeping
    have hnone : Assoc.hasKey k c.defaults = false := by
      refine Bool.eq_false_iff.2 fun h => ?_
      obtain ⟨x, hx⟩ := Option.isSome_iff_exists.1 h
      obtain ⟨d, hd, hbeq, -⟩ := Assoc.mem_of_valueAt? hx
      have howns := Bookkeeping.owns_of_beq hbeq hfree
      rw [clear.defaults d hd] at howns
      cases howns
    rw [completedStatus, completedStatus, defaulted_withDefaults regular,
      defaulted_withDefaults regular]
    simp [hnone]
  | false => exact defaulted_of_or regular (stores.ne_null k) (stores.read k hfree)

theorem valueAt?_put (stores : Stores key v updates stored stored') (name : Assoc.IsName key)
    (k : Json) (values : Fields) :
    (Assoc.valueAt? k updates).or (Assoc.valueAt? k (Assoc.put key v values)) =
      (given? key v updates k).or (Assoc.valueAt? k values) := by
  unfold given?
  rw [Assoc.valueAt?_put name]
  by_cases hk : (key == k) = true
  · have hnone : Assoc.valueAt? k updates = none := by
      cases h : Assoc.valueAt? k updates with
      | none => rfl
      | some x =>
        obtain ⟨e, he, hek, -⟩ := Assoc.mem_of_valueAt? h
        -- a rule that wrote here would have written the field of the answer
        have hbeq := name.beq_of_beq hk hek
        rw [stores.free e he] at hbeq
        cases hbeq
    rw [if_pos hk, if_pos hk, hnone]
    rfl
  · rw [if_neg hk, if_neg hk]

end Stores

/-- After an answer those fields are provisional that were so before and were not written. -/
theorem Settles.defaulted_iff (settles : Settles c s key v s' updates) (k : Json) :
    Assoc.valueAt? k s'.status = some .defaulted ↔
      given? key v updates k = none ∧ Assoc.valueAt? k s.status = some .defaulted := by
  rw [settles.status, Assoc.valueAt?_put (Json.isName_of_isKey settles.isKey), given?_eq_none]
  unfold Assoc.hasKey
  cases Assoc.valueAt? k updates with
  | some x => simp
  | none => cases hk : key == k <;> simp

/-- From what an answer has stored a state is loaded that agrees with the one that the answer has
led to. -/
theorem exists_agrees (regular : Assoc.Regular c.defaults) (clear : c.KeepsClear)
    (isKey : ∀ u ∈ c.computedVars, u.target.isKey = true)
    (hvalues : compute (completed c stored) c.computedVars = .ok s.values)
    (hstatus : s.status = completedStatus c stored) (settles : Settles c s key v s' updates)
    (stores : Stores key v updates stored stored') :
    ∃ s'', ofFields c stored' (some s'.document) = .ok s'' ∧ s''.Agrees s' := by
  have name := Json.isName_of_isKey settles.isKey
  obtain ⟨written, hwritten, hbase⟩ := settles.values
  -- before computing, the two differ only in what is computed or bookkeeping
  have hcompleted : ∀ k, Bookkeeping.owns k = false →
      (∀ u ∈ c.computedVars, (u.target == k) = false) →
      Assoc.valueAt? k written = Assoc.valueAt? k (completed c stored') := by
    intro k hfree hapart
    rw [hbase k hapart, stores.valueAt?_put name, valueAt?_compute isKey hvalues hapart,
      valueAt?_completed_of_or regular (stores.ne_null k) (stores.read k hfree)]
  -- computed variables look at neither, so computing succeeds again
  obtain ⟨values, hcompute, hsame⟩ := compute_congr isKey
    (fun u hu k hk => hcompleted k (clear.reads u hu k hk) (clear.apart u hu k hk)) hwritten
  have hagree : ∀ k, Bookkeeping.owns k = false →
      Assoc.valueAt? k values = Assoc.valueAt? k s'.values := by
    intro k hfree
    -- a target is overwritten on both sides, and any other field agreed before
    by_cases htarget : ∃ u ∈ c.computedVars, (u.target == k) = true
    · exact (hsame k (.inr htarget)).symm
    · exact (hsame k (.inl (hcompleted k hfree (apart_of_no_target htarget)))).symm
  have henabled : enabledModules values c.modules [] = .ok s'.enabled := by
    rw [← settles.enabled]
    exact enabledModules_congr (fun m hm n hn => hagree _ (clear.looks.module_ hm n hn)) []
  refine ⟨⟨s'.document, values, s'.enabled, completedStatus c stored'⟩, ?_, hagree, fun k => ?_,
    rfl, rfl⟩
  · rw [ofFields_eq]
    exact refresh_eq_ok_iff.2 ⟨values, s'.enabled, hcompute, henabled, rfl⟩
  · rw [statusOf_eq_defaulted, statusOf_eq_defaulted, settles.defaulted_iff, hstatus]
    exact stores.defaulted_iff regular clear k

end State

end Questionnaire
