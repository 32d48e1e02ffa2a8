import Questionnaire.Proofs.Lookup

/-!
# Regular associations

The entries of an association are regular when their keys are scalars and no two of them are equal.
Then it does not matter from which end a key is looked up.

## Main Definitions

* `Assoc.Regular` - entries under distinct scalars

## Main Statements

* `Assoc.Regular.valueAt?_overlay` - a lookup after writes of regular entries
* `Assoc.Regular.put`, `Assoc.Regular.overlay` - writes keep entries regular
-/

namespace Questionnaire

namespace Assoc

variable {α : Type}

/-- Entries under scalars, no two of which are equal. -/
structure Regular (m : Assoc Json α) : Prop where
  /-- The keys are scalars. -/
  isKey : ∀ e ∈ m, e.1.isKey = true
  /-- No two keys are equal. -/
  distinct : m.Pairwise fun e d => (e.1 == d.1) = false

theorem mem_put_or_key {k : Json} {v : α} {m : Assoc Json α} {e : Json × α} (he : e ∈ put k v m) :
    (∃ d ∈ m, d.1 = e.1) ∨ e.1 = k := by
  induction m with
  | nil =>
    rw [List.mem_singleton.1 he]
    exact .inr rfl
  | cons d m ih =>
    unfold put at he
    split at he
    · rcases List.mem_cons.1 he with rfl | he
      · exact .inl ⟨d, List.mem_cons_self, rfl⟩
      · exact .inl ⟨e, List.mem_cons_of_mem d he, rfl⟩
    · rcases List.mem_cons.1 he with rfl | he
      · exact .inl ⟨e, List.mem_cons_self, rfl⟩
      · rcases ih he with ⟨d', hd', hkey⟩ | he
        · exact .inl ⟨d', List.mem_cons_of_mem d hd', hkey⟩
        · exact .inr he

theorem mem_overlay_or_key {base m : Assoc Json α} {e : Json × α} (he : e ∈ overlay base m) :
    (∃ d ∈ base, d.1 = e.1) ∨ ∃ d ∈ m, d.1 = e.1 := by
  induction m generalizing base with
  | nil => exact .inl ⟨e, he, rfl⟩
  | cons d m ih =>
    rcases ih he with ⟨d', hd', hkey⟩ | ⟨d', hd', hkey⟩
    · rcases mem_put_or_key hd' with ⟨d'', hd'', hkey'⟩ | hkey'
      · exact .inl ⟨d'', hd'', hkey'.trans hkey⟩
      · exact .inr ⟨d, List.mem_cons_self, hkey'.symm.trans hkey⟩
    · exact .inr ⟨d', List.mem_cons_of_mem d hd', hkey⟩

namespace Regular

variable {m : Assoc Json α} {k : Json}

theorem nil : Regular ([] : Assoc Json α) where
  isKey _ h := by cases h
  distinct := List.Pairwise.nil

theorem isName (regular : Regular m) : ∀ e ∈ m, IsName e.1 :=
  fun e he => Json.isName_of_isKey (regular.isKey e he)

theorem of_cons {e : Json × α} (regular : Regular (e :: m)) : Regular m where
  isKey d hd := regular.isKey d (List.mem_cons_of_mem e hd)
  distinct := (List.pairwise_cons.1 regular.distinct).2

/-- A key is found at most once. -/
theorem valueAt?_eq_none {e : Json × α} (regular : Regular (e :: m)) (he : (e.1 == k) = true) :
    valueAt? k m = none := by
  cases h : valueAt? k m with
  | none => rfl
  | some v =>
    obtain ⟨d, hd, hdk, -⟩ := mem_of_valueAt? h
    -- an entry further on would have an equal key
    have hsame : (e.1 == d.1) = true :=
      (regular.isName d (List.mem_cons_of_mem e hd)).beq_of_beq hdk he
    rw [(List.pairwise_cons.1 regular.distinct).1 d hd] at hsame
    cases hsame

/-- An entry is found under its key. -/
theorem valueAt?_of_mem (regular : Regular m) {e : Json × α} (he : e ∈ m) :
    valueAt? e.1 m = some e.2 := by
  induction m with
  | nil => cases he
  | cons d m ih =>
    rw [valueAt?_cons]
    rcases List.mem_cons.1 he with rfl | he
    · rw [if_pos (regular.isName e List.mem_cons_self).self]
    · rw [if_neg (Bool.eq_false_iff.1 ((List.pairwise_cons.1 regular.distinct).1 e he)),
        ih regular.of_cons he]

theorem valueAt?_reverse (regular : Regular m) (k : Json) :
    valueAt? k m.reverse = valueAt? k m := by
  induction m with
  | nil => rfl
  | cons e m ih =>
    rw [List.reverse_cons, valueAt?_append, ih regular.of_cons, valueAt?_cons, valueAt?_cons]
    by_cases he : (e.1 == k) = true
    · rw [if_pos he, if_pos he, regular.valueAt?_eq_none he, Option.none_or]
    · rw [if_neg he, if_neg he, valueAt?_nil, Option.or_none]

/-- A lookup after writes of regular entries finds what was written first. -/
theorem valueAt?_overlay (regular : Regular m) (base : Assoc Json α) (k : Json) :
    valueAt? k (overlay base m) = (valueAt? k m).or (valueAt? k base) := by
  rw [Assoc.valueAt?_overlay regular.isName, regular.valueAt?_reverse]

theorem filter (regular : Regular m) (p : Json × α → Bool) : Regular (m.filter p) where
  isKey e he := regular.isKey e (List.mem_filter.1 he).1
  distinct := regular.distinct.filter p

/-- A filter of values filters what is found. -/
theorem valueAt?_filter (regular : Regular m) (p : α → Bool) (k : Json) :
    valueAt? k (m.filter fun e => p e.2) = (valueAt? k m).filter p := by
  induction m with
  | nil => rfl
  | cons e m ih =>
    rw [valueAt?_cons]
    by_cases hp : p e.2 = true
    · rw [List.filter_cons, if_pos hp, valueAt?_cons, ih regular.of_cons]
      split
      · rw [Option.filter_some, if_pos hp]
      · rfl
    · rw [List.filter_cons, if_neg hp, ih regular.of_cons]
      split
      · rename_i he
        rw [regular.valueAt?_eq_none he, Option.filter_some, if_neg hp, Option.filter_none]
      · rfl

theorem put (regular : Regular m) (hk : k.isKey = true) (v : α) : Regular (Assoc.put k v m) := by
  induction m with
  | nil =>
    refine ⟨fun e he => ?_, List.pairwise_singleton _ _⟩
    rw [List.mem_singleton.1 he]
    exact hk
  | cons d m ih =>
    obtain ⟨hfirst, hrest⟩ := List.pairwise_cons.1 regular.distinct
    unfold Assoc.put
    split
    · refine ⟨fun e he => ?_, List.pairwise_cons.2 ⟨hfirst, hrest⟩⟩
      rcases List.mem_cons.1 he with rfl | he
      · exact regular.isKey d List.mem_cons_self
      · exact regular.isKey e (List.mem_cons_of_mem d he)
    · rename_i hd
      have hput := ih regular.of_cons
      refine ⟨fun e he => ?_, List.pairwise_cons.2 ⟨fun e he => ?_, hput.distinct⟩⟩
      · rcases List.mem_cons.1 he with rfl | he
        · exact regular.isKey e List.mem_cons_self
        · exact hput.isKey e he
      · rcases mem_put_or_key he with he | he
        · obtain ⟨d', hd', hkey⟩ := he
          rw [← hkey]
          exact hfirst d' hd'
        · rw [he]
          exact Bool.eq_false_iff.2 hd

theorem overlay {base : Assoc Json α} (hbase : Regular base) (hkeys : ∀ e ∈ m, e.1.isKey = true) :
    Regular (Assoc.overlay base m) := by
  induction m generalizing base with
  | nil => exact hbase
  | cons e m ih =>
    exact ih (hbase.put (hkeys e List.mem_cons_self) e.2) fun d hd =>
      hkeys d (List.mem_cons_of_mem e hd)

end Regular

end Assoc

end Questionnaire
