import Questionnaire.Proofs.Regular
import Questionnaire.State.Basic

/-!
# Provisional values

A default stands in for a value exactly where none is stored, and exactly there the field counts as
provisional.

## Main Definitions

* `Fields.lacks` - no value is stored under a key

## Main Statements

* `State.valueAt?_withDefaults` - the values that defaults complete
* `State.status_withDefaults` - the fields that are provisional
-/

namespace Questionnaire

/-- No value is stored under a key. -/
def Fields.lacks (fields : Fields) (key : Json) : Bool :=
  (Json.null).equal ((Assoc.valueAt? key fields).getD .null)

theorem Json.null_equal (v : Json) : (Json.null).equal v = true ↔ v = .null := by
  cases v <;> simp [equal, quantity?, BEq.beq, alike]

theorem Fields.lacks_eq_false {fields : Fields} {key v : Json}
    (h : Assoc.valueAt? key fields = some v) (hv : v ≠ .null) : fields.lacks key = false := by
  refine Bool.eq_false_iff.2 fun hlacks => hv ?_
  rw [lacks, h] at hlacks
  exact (Json.null_equal v).1 hlacks

theorem Fields.lacks_congr {fields fields' : Fields} {key key' : Json}
    (h : Assoc.valueAt? key fields = Assoc.valueAt? key' fields') :
    fields.lacks key = fields'.lacks key' := by
  rw [lacks, lacks, h]

theorem Fields.lacks_of_beq {fields : Fields} {key key' : Json} (name : Assoc.IsName key)
    (h : (key == key') = true) : fields.lacks key = fields.lacks key' := by
  rw [name.symm] at h
  exact lacks_congr (Assoc.valueAt?_congr name h fields).symm

namespace State

variable {defaults : Fields}

/-- A default is the value of a field that lacks one, and no other field changes. -/
theorem valueAt?_withDefaults (regular : Assoc.Regular defaults) (values : Fields)
    (status : Assoc Json FieldStatus) (key : Json) :
    Assoc.valueAt? key (withDefaults defaults (values, status)).1 =
      if values.lacks key then (Assoc.valueAt? key defaults).or (Assoc.valueAt? key values)
      else Assoc.valueAt? key values := by
  induction defaults generalizing values status with
  | nil => rw [withDefaults, Assoc.valueAt?_nil, Option.none_or, ite_self]
  | cons d defaults ih =>
    have name := regular.isName d List.mem_cons_self
    have ih := fun values status => ih regular.of_cons values status
    show Assoc.valueAt? key (if values.lacks d.1 then _ else _ : Fields × _).1 = _
    rw [Assoc.valueAt?_cons]
    by_cases hd : (d.1 == key) = true
    · -- no later default stands under this key
      rw [regular.valueAt?_eq_none hd] at ih
      rw [if_pos hd, Fields.lacks_of_beq name hd]
      split
      · rw [ih, Assoc.valueAt?_put name, if_pos hd, Option.none_or, ite_self, Option.some_or]
      · rw [ih, Option.none_or, ite_self]
    · have hput : Assoc.valueAt? key (Assoc.put d.1 d.2 values) = Assoc.valueAt? key values := by
        rw [Assoc.valueAt?_put name, if_neg hd]
      rw [if_neg hd]
      split
      · rw [ih, Fields.lacks_congr hput, hput]
      · rw [ih]

/-- The fields that defaults stand in for are provisional, and no other status changes. -/
theorem status_withDefaults (regular : Assoc.Regular defaults) (values : Fields)
    (status : Assoc Json FieldStatus) (key : Json) :
    Assoc.valueAt? key (withDefaults defaults (values, status)).2 =
      if values.lacks key && Assoc.hasKey key defaults then some .defaulted
      else Assoc.valueAt? key status := by
  induction defaults generalizing values status with
  | nil => rw [Assoc.hasKey, Assoc.valueAt?_nil, Option.isSome_none, Bool.and_false]; rfl
  | cons d defaults ih =>
    have name := regular.isName d List.mem_cons_self
    have ih := fun values status => ih regular.of_cons values status
    show Assoc.valueAt? key (if values.lacks d.1 then _ else _ : Fields × _).2 = _
    unfold Assoc.hasKey at ih ⊢
    rw [Assoc.valueAt?_cons]
    by_cases hd : (d.1 == key) = true
    · -- as above, no later default stands under this key
      rw [regular.valueAt?_eq_none hd] at ih
      rw [if_pos hd, Fields.lacks_of_beq name hd]
      split
      · rename_i hlacks
        rw [ih, Assoc.valueAt?_put name, if_pos hd, hlacks]
        simp
      · rename_i hlacks
        rw [ih, Bool.eq_false_iff.2 hlacks]
        simp
    · have hput : Assoc.valueAt? key (Assoc.put d.1 d.2 values) = Assoc.valueAt? key values := by
        rw [Assoc.valueAt?_put name, if_neg hd]
      rw [if_neg hd]
      split
      · rw [ih, Fields.lacks_congr hput, Assoc.valueAt?_put name, if_neg hd]
      · rw [ih]

theorem regular_withDefaults {values : Fields} (isKey : ∀ d ∈ defaults, d.1.isKey = true)
    (regular : Assoc.Regular values) (status : Assoc Json FieldStatus) :
    Assoc.Regular (withDefaults defaults (values, status)).1 := by
  induction defaults generalizing values status with
  | nil => exact regular
  | cons d rest ih =>
    obtain ⟨hd, isKey⟩ := List.forall_mem_cons.1 isKey
    unfold withDefaults
    split
    · exact ih isKey (regular.put hd d.2) _
    · exact ih isKey regular status

theorem statusOf_eq_defaulted (s : State) (key : Json) :
    s.statusOf key = .defaulted ↔ Assoc.valueAt? key s.status = some .defaulted := by
  unfold statusOf
  cases Assoc.valueAt? key s.status <;> simp

theorem storedStatus_ne_defaulted (stored : Fields) (key : Json) :
    Assoc.valueAt? key (storedStatus stored) ≠ some .defaulted := by
  intro h
  obtain ⟨e, he, -, hstatus⟩ := Assoc.mem_of_valueAt? h
  obtain ⟨d, -, rfl⟩ := List.mem_map.1 he
  cases hstatus

theorem valueAt?_storedStatus {stored : Fields} (regular : Assoc.Regular stored) (key : Json) :
    Assoc.valueAt? key (storedStatus stored) =
      ((Assoc.valueAt? key stored).filter Json.isAnswered).map fun _ => .answered := by
  rw [← regular.valueAt?_filter]
  exact Assoc.valueAt?_mapValues (fun _ => FieldStatus.answered) key _

/-- Of stored values those fields are provisional that lack a value and have a default. -/
theorem defaulted_withDefaults (regular : Assoc.Regular defaults) (stored : Fields) (key : Json) :
    Assoc.valueAt? key (withDefaults defaults (stored, storedStatus stored)).2 = some .defaulted ↔
      stored.lacks key = true ∧ Assoc.hasKey key defaults = true := by
  rw [status_withDefaults regular, ← Bool.and_eq_true]
  split
  · rename_i h
    simp only [h]
  · rename_i h
    exact iff_of_false (storedStatus_ne_defaulted stored key) h

end State

end Questionnaire
