/-!
# Ordered associations

A list of keys with values, in the order in which the keys were first written.

## Main Definitions

* `Assoc.valueAt?` - the value under a key
* `Assoc.put` - write a value, keeping the place of a key that is present
* `Assoc.remove` - remove a key
* `Assoc.overlay` - write all entries of another association

## Main Statements

* `Assoc.valueAt?_put_self`, `Assoc.valueAt?_put_of_ne` - what a write changes
* `Assoc.keyList_put` - where a write puts its key
-/

namespace Questionnaire

/-- Keys with values, in the order of their first writes. -/
abbrev Assoc (κ α : Type) := List (κ × α)

namespace Assoc

variable {κ α : Type} [BEq κ]

/-- The value under a key. -/
def valueAt? (k : κ) : Assoc κ α → Option α
  | [] => none
  | e :: rest => if e.1 == k then some e.2 else valueAt? k rest

/-- Whether a key is present. -/
def hasKey (k : κ) (m : Assoc κ α) : Bool := (valueAt? k m).isSome

/-- Write a value.  A key that is present keeps its place, a new one comes last. -/
def put (k : κ) (v : α) : Assoc κ α → Assoc κ α
  | [] => [(k, v)]
  | e :: rest => if e.1 == k then (e.1, v) :: rest else e :: put k v rest

/-- Remove a key. -/
def remove (k : κ) (m : Assoc κ α) : Assoc κ α := m.filter fun e => !(e.1 == k)

/-- Write all entries of `patch`, in order. -/
def overlay (base patch : Assoc κ α) : Assoc κ α :=
  patch.foldl (fun m e => put e.1 e.2 m) base

/-- The association with the given entries, a later one replacing an earlier one of the same key. -/
def ofEntries (entries : List (κ × α)) : Assoc κ α := overlay [] entries

/-- The keys in order. -/
def keyList (m : Assoc κ α) : List κ := m.map (·.1)

@[simp] theorem valueAt?_nil (k : κ) : valueAt? k ([] : Assoc κ α) = none := rfl

theorem valueAt?_cons (k : κ) (e : κ × α) (m : Assoc κ α) :
    valueAt? k (e :: m) = if e.1 == k then some e.2 else valueAt? k m := rfl

theorem valueAt?_put_self [LawfulBEq κ] (k : κ) (v : α) (m : Assoc κ α) :
    valueAt? k (put k v m) = some v := by
  induction m with
  | nil => simp [put, valueAt?]
  | cons e m ih =>
    by_cases h : e.1 == k <;> simp_all [put, valueAt?]

theorem valueAt?_put_of_ne [LawfulBEq κ] {k k' : κ} (v : α) (m : Assoc κ α) (h : k' ≠ k) :
    valueAt? k (put k' v m) = valueAt? k m := by
  induction m with
  | nil => simp [put, valueAt?, h]
  | cons e m ih =>
    by_cases he : e.1 == k'
    · have : e.1 = k' := eq_of_beq he
      simp [put, valueAt?, this, h]
    · simp [put, valueAt?, he, ih]

theorem keyList_put [LawfulBEq κ] (k : κ) (v : α) (m : Assoc κ α) :
    keyList (put k v m) = if hasKey k m then keyList m else keyList m ++ [k] := by
  induction m with
  | nil => rfl
  | cons e m ih =>
    unfold keyList hasKey at ih ⊢
    by_cases he : e.1 == k
    · simp [put, valueAt?, he]
    · rw [put, valueAt?_cons, if_neg he, if_neg he, List.map_cons, ih]
      split <;> simp

end Assoc

end Questionnaire
