import Questionnaire.Proofs.Json.WellFormed
import Questionnaire.Proofs.Regular
import Questionnaire.Proofs.Store.Memory

/-!
# What a scope reads

A scope reads what it holds itself, and behind it what the last of the other scopes holds.  A patch
of a scope stands before everything that the scope has read.

## Main Definitions

* `Scopes.WellFormed` - scopes of regular, well-formed values
* `Scopes.own`, `Scopes.behind` - the two parts of what a scope reads
* `Scopes.Throughout` - regular scopes, all of whose values have a property
* `Scopes.Sound` - regular scopes whose values under some keys are well formed
* `Scopes.OnlyRecords` - a scope holds nothing but the record of completed sections
* `MemoryStore.WellFormed` - a store of well-formed scopes

## Main Statements

* `Scopes.Regular.valueAt?_behind` - what a scope sees of the others
* `Scopes.valueAt?_read_write` - what a scope reads after a patch of it
* `Scopes.read_write_of_unlisted` - what a scope without values reads after a patch of another one
* `Scopes.Regular.valueAt?_read_record` - a new record of completed sections changes nothing else
-/

namespace Questionnaire

namespace Scopes

/-- The scopes of a user hold well-formed values under distinct scalars. -/
structure WellFormed (scopes : Scopes) : Prop where
  /-- Every scope is regular. -/
  regular : ∀ e ∈ scopes, Assoc.Regular e.2
  /-- Every value is well formed. -/
  values : ∀ e ∈ scopes, ∀ d ∈ e.2, d.2.WellFormed

variable {scopes : Scopes} {scope : Json}

/-- What a scope holds itself. -/
def own (scopes : Scopes) (scope : Json) : Fields := (Assoc.valueAt? scope scopes).getD []

/-- What a scope sees of the other scopes. -/
def behind (scopes : Scopes) (scope : Json) : Fields :=
  scopes.foldl (fun acc e => if e.1 == scope then acc else Assoc.overlay acc e.2) []

theorem read_eq (scopes : Scopes) (scope : Json) :
    scopes.read scope = Assoc.overlay (scopes.behind scope) (scopes.own scope) := rfl

theorem mem_own (scope : Json) {P : Fields → Prop} (hnil : P [])
    (h : ∀ e ∈ scopes, (e.1 == scope) = true → P e.2) : P (scopes.own scope) := by
  unfold own
  cases hfound : Assoc.valueAt? scope scopes with
  | none => exact hnil
  | some fields =>
    obtain ⟨e, he, hscope, rfl⟩ := Assoc.mem_of_valueAt? hfound
    exact h e he hscope

namespace WellFormed

/-- What the other scopes are laid over stays well formed. -/
theorem values_foldl (scope : Json) {others : Scopes} {acc : Fields}
    (hacc : ∀ e ∈ acc, e.2.WellFormed) (hothers : ∀ e ∈ others, ∀ d ∈ e.2, d.2.WellFormed) :
    ∀ e ∈ others.foldl (fun acc e => if e.1 == scope then acc else Assoc.overlay acc e.2) acc,
      e.2.WellFormed := by
  induction others generalizing acc with
  | nil => exact hacc
  | cons o others ih =>
    refine ih ?_ fun e he => hothers e (List.mem_cons_of_mem o he)
    dsimp only
    split
    · exact hacc
    · exact Assoc.mem_overlay_value hacc (hothers o List.mem_cons_self)

theorem values_read (wellFormed : scopes.WellFormed) (scope : Json) :
    ∀ e ∈ scopes.read scope, e.2.WellFormed := by
  have hbehind : ∀ e ∈ scopes.behind scope, e.2.WellFormed :=
    values_foldl scope (by simp) wellFormed.values
  have hown : ∀ e ∈ scopes.own scope, e.2.WellFormed :=
    mem_own scope (P := fun fields => ∀ e ∈ fields, e.2.WellFormed) (by simp)
      fun e he _ => wellFormed.values e he
  rw [read_eq]
  exact Assoc.mem_overlay_value hbehind hown

end WellFormed

/-- A patch of a scope does not change what it sees of the others. -/
theorem behind_write (hscope : scope.isKey = true) (scopes : Scopes) (patch : Fields) :
    (scopes.write scope patch).behind scope = scopes.behind scope := by
  unfold behind write Assoc.remove
  rw [List.foldl_append, List.foldl_cons, List.foldl_nil,
    if_pos (Json.isName_of_isKey hscope).self, List.foldl_filter]
  congr 1
  funext acc e
  cases e.1 == scope <;> rfl

theorem own_write (hscope : scope.isKey = true) (scopes : Scopes) (patch : Fields) :
    (scopes.write scope patch).own scope =
      Assoc.overlay (scopes.own scope) (written patch) := by
  have name := Json.isName_of_isKey hscope
  unfold own write
  rw [Assoc.valueAt?_append, Assoc.valueAt?_remove name, if_pos name.self, Option.none_or,
    Assoc.valueAt?_cons, if_pos name.self, Option.getD_some]

/-! ## Regular scopes -/

/-- Every scope holds its values under distinct scalars. -/
def Regular (scopes : Scopes) : Prop := ∀ e ∈ scopes, Assoc.Regular e.2

/-- Only one scope holds a value under a key. -/
def OnlyIn (scopes : Scopes) (home key : Json) : Prop :=
  ∀ e ∈ scopes, (e.1 == home) = false → Assoc.valueAt? key e.2 = none

/-- What the other scopes, laid over each other, hold is what the last of them holds. -/
theorem valueAt?_foldl {others : Scopes} (regular : Regular others) (scope key : Json)
    (acc : Fields) :
    Assoc.valueAt? key (others.foldl
      (fun acc e => if e.1 == scope then acc else Assoc.overlay acc e.2) acc) =
      (others.reverse.findSome? fun e =>
        if e.1 == scope then none else Assoc.valueAt? key e.2).or (Assoc.valueAt? key acc) := by
  induction others generalizing acc with
  | nil => rfl
  | cons e others ih =>
    rw [List.foldl_cons, ih (fun d hd => regular d (List.mem_cons_of_mem e hd)), List.reverse_cons,
      List.findSome?_append, Option.or_assoc, List.findSome?_singleton]
    congr 1
    split
    · rfl
    · rw [(regular e List.mem_cons_self).valueAt?_overlay]

namespace Regular

theorem own (regular : scopes.Regular) (scope : Json) : Assoc.Regular (scopes.own scope) :=
  mem_own scope .nil fun e he _ => regular e he

/-- A scope reads its own values first. -/
theorem valueAt?_read (regular : scopes.Regular) (scope key : Json) :
    Assoc.valueAt? key (scopes.read scope) =
      (Assoc.valueAt? key (scopes.own scope)).or (Assoc.valueAt? key (scopes.behind scope)) := by
  rw [read_eq, (regular.own scope).valueAt?_overlay]

/-- A scope sees what the last of the other scopes holds. -/
theorem valueAt?_behind (regular : scopes.Regular) (scope key : Json) :
    Assoc.valueAt? key (scopes.behind scope) = scopes.reverse.findSome? fun e =>
      if e.1 == scope then none else Assoc.valueAt? key e.2 := by
  rw [behind, valueAt?_foldl regular, Assoc.valueAt?_nil, Option.or_none]

/-- A value that only one scope holds is read there as it is held. -/
theorem valueAt?_read_of_onlyIn (regular : scopes.Regular) {home key : Json}
    (only : scopes.OnlyIn home key) :
    Assoc.valueAt? key (scopes.read home) = Assoc.valueAt? key (scopes.own home) := by
  have hnone : Assoc.valueAt? key (scopes.behind home) = none := by
    rw [regular.valueAt?_behind, List.findSome?_eq_none_iff]
    intro e he
    split
    · rfl
    · rename_i hother
      exact only e (List.mem_reverse.1 he) (Bool.eq_false_iff.2 hother)
  rw [regular.valueAt?_read, hnone, Option.or_none]

theorem write (regular : scopes.Regular) {patch : Fields}
    (hpatch : ∀ e ∈ patch, e.1.isKey = true) : (scopes.write scope patch).Regular := by
  intro e he
  rcases List.mem_append.1 he with he | he
  · exact regular e (List.mem_filter.1 he).1
  · rw [List.mem_singleton.1 he]
    exact (regular.own scope).overlay fun d hd => hpatch d (List.mem_filter.1 hd).1

end Regular

/-- A patch elsewhere that does not write the key leaves it to its scope. -/
theorem OnlyIn.write {home key : Json} (only : scopes.OnlyIn home key)
    (hscope : scope.isKey = true) {patch : Fields} (hpatch : ∀ e ∈ patch, e.1.isKey = true)
    (hfree : (scope == home) = false → ∀ e ∈ patch, (e.1 == key) = false) :
    (scopes.write scope patch).OnlyIn home key := by
  have name := Json.isName_of_isKey hscope
  intro e he hother
  rcases List.mem_append.1 he with he | he
  · exact only e (List.mem_filter.1 he).1 hother
  · rw [List.mem_singleton.1 he] at hother ⊢
    have hnames : ∀ d ∈ written patch, Assoc.IsName d.1 := fun d hd =>
      Json.isName_of_isKey (hpatch d (List.mem_filter.1 hd).1)
    rw [Assoc.valueAt?_overlay_of_forall_ne hnames _ fun d hd =>
      hfree hother d (List.mem_filter.1 hd).1]
    cases hfound : Assoc.valueAt? scope scopes with
    | none => rfl
    | some fields =>
      obtain ⟨d, hd, hdscope, rfl⟩ := Assoc.mem_of_valueAt? hfound
      refine only d hd ?_
      rw [name.left hdscope]
      exact hother

/-- A value that is written. -/
def isWritten : Json → Bool
  | .null => false
  | _ => true

theorem written_eq (patch : Fields) : written patch = patch.filter fun e => isWritten e.2 := rfl

theorem isWritten_iff (v : Json) : isWritten v = true ↔ v ≠ .null := by
  cases v <;> simp [isWritten]

theorem valueAt?_written {patch : Fields} (regular : Assoc.Regular patch) (key : Json) :
    Assoc.valueAt? key (written patch) = (Assoc.valueAt? key patch).filter isWritten := by
  rw [written_eq, regular.valueAt?_filter]

/-- What is written is not absent. -/
theorem ne_null_of_written {patch : Fields} {key v : Json}
    (h : Assoc.valueAt? key (written patch) = some v) : v ≠ .null := by
  obtain ⟨e, he, -, rfl⟩ := Assoc.mem_of_valueAt? h
  exact (isWritten_iff e.2).1 (List.mem_filter.1 he).2

/-- What a scope holds after a patch of regular entries. -/
theorem valueAt?_own_write (hscope : scope.isKey = true) (scopes : Scopes) {patch : Fields}
    (regular : Assoc.Regular patch) (key : Json) :
    Assoc.valueAt? key ((scopes.write scope patch).own scope) =
      ((Assoc.valueAt? key patch).filter isWritten).or (Assoc.valueAt? key (scopes.own scope)) := by
  have hwritten : Assoc.Regular (written patch) := regular.filter _
  rw [own_write hscope, hwritten.valueAt?_overlay, valueAt?_written regular]

/-- After a patch a scope reads the patch before what it has read. -/
theorem valueAt?_read_write (hscope : scope.isKey = true) (regular : scopes.Regular)
    {patch : Fields} (hpatch : Assoc.Regular patch) (key : Json) :
    Assoc.valueAt? key ((scopes.write scope patch).read scope) =
      ((Assoc.valueAt? key patch).filter isWritten).or
        (Assoc.valueAt? key (scopes.read scope)) := by
  rw [(regular.write hpatch.isKey).valueAt?_read, valueAt?_own_write hscope scopes hpatch,
    behind_write hscope, Option.or_assoc, regular.valueAt?_read]

/-- Scopes that are equal as keys read the same. -/
theorem read_congr {other : Json} (hscope : scope.isKey = true) (h : (other == scope) = true)
    (scopes : Scopes) : scopes.read other = scopes.read scope := by
  have name := Json.isName_of_isKey hscope
  have hbehind : scopes.behind other = scopes.behind scope := by
    unfold behind
    congr 1
    funext acc e
    rw [name.right h]
  rw [read_eq, read_eq, hbehind, own, own, Assoc.valueAt?_congr name h]

/-- A scope without values reads after a patch of another scope what that one reads. -/
theorem read_write_of_unlisted {other : Json} (hscope : scope.isKey = true)
    (hother : (scope == other) = false) (h : ∀ e ∈ scopes, (e.1 == other) = false)
    (patch : Fields) : (scopes.write scope patch).read other =
      (scopes.write scope patch).read scope := by
  have hown : (scopes.write scope patch).own other = [] := by
    rw [own, valueAt?_write (Json.isName_of_isKey hscope), hother, if_neg Bool.false_ne_true,
      Assoc.valueAt?_eq_none h]
    rfl
  -- no scope is left out, and the patched one stands last
  have hbehind : (scopes.write scope patch).behind other =
      Assoc.overlay (scopes.behind scope) (Assoc.overlay (scopes.own scope) (written patch)) := by
    unfold behind write Assoc.remove
    rw [List.foldl_append, List.foldl_cons, List.foldl_nil, if_neg (by rw [hother]; simp),
      List.foldl_filter]
    congr 1
    refine List.foldl_ext _ _ _ fun acc e he => ?_
    rw [h e he]
    cases e.1 == scope <;> rfl
  rw [read_eq, read_eq, hown, hbehind, behind_write hscope, own_write hscope]
  rfl

/-! ## Properties of all values -/

/-- Regular scopes, all of whose values have a property under their keys. -/
structure Throughout (P : Json → Json → Prop) (scopes : Scopes) : Prop where
  /-- The scopes are regular. -/
  regular : scopes.Regular
  /-- The values have the property. -/
  values : ∀ e ∈ scopes, ∀ key v, Assoc.valueAt? key e.2 = some v → P key v

namespace Throughout

variable {P : Json → Json → Prop} {key v : Json}

theorem nil : Throughout P [] := ⟨by simp [Regular], by simp⟩

theorem own (throughout : Throughout P scopes) (scope : Json)
    (h : Assoc.valueAt? key (scopes.own scope) = some v) : P key v :=
  mem_own scope (P := fun fields => Assoc.valueAt? key fields = some v → P key v)
    (fun h => by cases h) (fun e he _ => throughout.values e he key v) h

theorem read (throughout : Throughout P scopes) (scope : Json)
    (h : Assoc.valueAt? key (scopes.read scope) = some v) : P key v := by
  rw [throughout.regular.valueAt?_read] at h
  rcases Option.or_eq_some_iff.1 h with h | ⟨-, h⟩
  · exact throughout.own scope h
  · rw [throughout.regular.valueAt?_behind] at h
    obtain ⟨e, he, hfound⟩ := List.exists_of_findSome?_eq_some h
    split at hfound
    · cases hfound
    · exact throughout.values e (List.mem_reverse.1 he) key v hfound

theorem write (throughout : Throughout P scopes) (hscope : scope.isKey = true) {patch : Fields}
    (regular : Assoc.Regular patch)
    (hpatch : ∀ key v, Assoc.valueAt? key patch = some v → P key v) :
    Throughout P (scopes.write scope patch) := by
  refine ⟨throughout.regular.write regular.isKey, fun e he key v h => ?_⟩
  rcases List.mem_append.1 he with he | he
  · exact throughout.values e (List.mem_filter.1 he).1 key v h
  · have hown : e.2 = (scopes.write scope patch).own scope := by
      rw [own_write hscope, List.mem_singleton.1 he]
      rfl
    rw [hown, valueAt?_own_write hscope scopes regular] at h
    rcases Option.or_eq_some_iff.1 h with h | ⟨-, h⟩
    · exact hpatch key v (Option.filter_eq_some_iff.1 h).1
    · exact throughout.own scope h

end Throughout

/-! ## Sound scopes -/

/-- Regular scopes whose values under some keys are well formed. -/
structure Sound (K : Json → Prop) (scopes : Scopes) : Prop where
  /-- The scopes are regular. -/
  regular : scopes.Regular
  /-- The values under these keys are well formed. -/
  wellFormed : ∀ e ∈ scopes, ∀ key v, K key → Assoc.valueAt? key e.2 = some v → v.WellFormed

theorem sound_iff (K : Json → Prop) (scopes : Scopes) :
    Sound K scopes ↔ Throughout (fun key v => K key → v.WellFormed) scopes :=
  ⟨fun sound => ⟨sound.regular, fun e he key v h hkey => sound.wellFormed e he key v hkey h⟩,
    fun h => ⟨h.regular, fun e he key v hkey hv => h.values e he key v hv hkey⟩⟩

namespace Sound

variable {K : Json → Prop} {key v : Json}

theorem nil : Sound K [] := (sound_iff K []).2 .nil

theorem read (sound : Sound K scopes) (scope : Json) (hkey : K key)
    (h : Assoc.valueAt? key (scopes.read scope) = some v) : v.WellFormed :=
  ((sound_iff K scopes).1 sound).read scope h hkey

theorem write (sound : Sound K scopes) (hscope : scope.isKey = true) {patch : Fields}
    (regular : Assoc.Regular patch)
    (hpatch : ∀ key v, K key → Assoc.valueAt? key patch = some v → v.WellFormed) :
    Sound K (scopes.write scope patch) :=
  (sound_iff K _).2 <| ((sound_iff K scopes).1 sound).write hscope regular fun key v h hkey =>
    hpatch key v hkey h

end Sound

/-! ## The record of completed sections -/

/-- A scope holds nothing but the record of completed sections. -/
def OnlyRecords (scopes : Scopes) (home : Json) : Prop :=
  ∀ e ∈ scopes, (e.1 == home) = true → ∀ key, key ≠ Bookkeeping.completed →
    Assoc.valueAt? key e.2 = none

section

variable {home key : Json} (hhome : home.isKey = true) (done : List Json)

/-- A patch that holds a new record of completed sections. -/
def record (done : List Json) : Fields := [(Bookkeeping.completed, .arr done)]

theorem valueAt?_record (hkey : key ≠ Bookkeeping.completed) :
    Assoc.valueAt? key (record done) = none := by
  have hne : (Bookkeeping.completed == key) = false :=
    Bool.eq_false_iff.2 fun hbeq => hkey (Json.eq_of_str_beq hbeq)
  rw [record, Assoc.valueAt?_cons, hne, if_neg Bool.false_ne_true, Assoc.valueAt?_nil]

theorem regular_record : Assoc.Regular (record done) := Assoc.Regular.nil.put rfl _

include hhome

/-- A new record of completed sections leaves all other values of a scope alone. -/
theorem valueAt?_own_record (scopes : Scopes)
    (h : (home == scope) = true → key ≠ Bookkeeping.completed) :
    Assoc.valueAt? key ((scopes.write home (record done)).own scope) =
      Assoc.valueAt? key (scopes.own scope) := by
  have name := Json.isName_of_isKey hhome
  cases hscope : home == scope with
  | true =>
    have hsame : (scope == home) = true := by rw [← name.symm]; exact hscope
    have hown (scopes : Scopes) : scopes.own scope = scopes.own home := by
      rw [own, own, Assoc.valueAt?_congr name hsame]
    rw [hown, hown, valueAt?_own_write hhome scopes (regular_record done),
      valueAt?_record done (h hscope), Option.filter_none, Option.none_or]
  | false => rw [own, valueAt?_write name, hscope, if_neg Bool.false_ne_true]; rfl

omit hhome in
theorem OnlyRecords.own (only : scopes.OnlyRecords home) (hkey : key ≠ Bookkeeping.completed) :
    Assoc.valueAt? key (scopes.own home) = none :=
  mem_own home (P := fun fields => Assoc.valueAt? key fields = none) rfl
    fun e he hsame => only e he hsame key hkey

theorem OnlyRecords.write (only : scopes.OnlyRecords home) :
    (scopes.write home (record done)).OnlyRecords home := by
  intro e he hsame key hkey
  rcases List.mem_append.1 he with he | he
  · exact only e (List.mem_filter.1 he).1 hsame key hkey
  · have hown : e.2 = (scopes.write home (record done)).own home := by
      rw [own_write hhome, List.mem_singleton.1 he]
      rfl
    rw [hown, valueAt?_own_record hhome done scopes fun _ => hkey]
    exact only.own hkey

/-- A new record of completed sections changes nothing else that is read, as long as its scope holds
nothing else. -/
theorem Regular.valueAt?_read_record (regular : scopes.Regular) (only : scopes.OnlyRecords home)
    (hkey : key ≠ Bookkeeping.completed) (scope : Json) :
    Assoc.valueAt? key ((scopes.write home (record done)).read scope) =
      Assoc.valueAt? key (scopes.read scope) := by
  have hregular : (scopes.write home (record done)).Regular :=
    regular.write (regular_record done).isKey
  rw [hregular.valueAt?_read, regular.valueAt?_read, valueAt?_own_record hhome done scopes
    fun _ => hkey, hregular.valueAt?_behind, regular.valueAt?_behind]
  congr 1
  -- the scope of the record moves to the end, and holds nothing under this key before and after
  have hlast : Assoc.valueAt? key (Assoc.overlay ((Assoc.valueAt? home scopes).getD [])
      (written (record done))) = none := by
    have hwritten : Assoc.Regular (written (record done)) := (regular_record done).filter _
    rw [hwritten.valueAt?_overlay, ← Scopes.own, only.own hkey, Option.or_none]
    exact valueAt?_record done hkey
  unfold Scopes.write Assoc.remove
  rw [List.reverse_append, List.reverse_singleton, List.singleton_append, List.findSome?_cons]
  dsimp only
  rw [hlast, ite_self]
  dsimp only
  rw [← List.filter_reverse, ← List.head?_filterMap, ← List.head?_filterMap, List.filterMap_filter]
  congr 1
  refine List.filterMap_congr fun e he => ?_
  cases hsame : e.1 == home with
  | false => rfl
  | true => rw [only e (List.mem_reverse.1 he) hsame key hkey, ite_self]; rfl

end

end Scopes

namespace MemoryStore

/-- The scopes of all users are well formed. -/
def WellFormed (m : MemoryStore) : Prop := ∀ e ∈ m.fields, Scopes.WellFormed e.2

theorem WellFormed.scopes {m : MemoryStore} (wellFormed : m.WellFormed) (user : String) :
    (m.scopes user).WellFormed := by
  unfold MemoryStore.scopes
  cases hfound : Assoc.valueAt? user m.fields with
  | none => exact ⟨by simp, by simp⟩
  | some scopes =>
    obtain ⟨e, he, -, rfl⟩ := Assoc.mem_of_valueAt? hfound
    exact wellFormed e he

end MemoryStore

end Questionnaire
