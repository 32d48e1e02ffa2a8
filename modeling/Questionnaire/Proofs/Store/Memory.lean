import Questionnaire.Bookkeeping
import Questionnaire.Proofs.Lookup
import Questionnaire.Store.Memory

/-!
# What the store in memory keeps

A store is looked at through three views of one user: the pointer, the history, and the value that a
scope itself holds under a key.  Each operation is described by what it does to the three views.

## Main Definitions

* `MemoryStore.pointer?`, `MemoryStore.own?` - the views besides `MemoryStore.records`
* `MemoryStore.patched` - the store after a patch of a scope that is a key
* `MemoryStore.Untouched` - the views of a user are what they were, the extracted answer aside
* `MemoryStore.Elsewhere` - the views of all other users are what they were

## Main Statements

* `MemoryStore.own?_patched` - what a patch changes
* `MemoryStore.untouched_clear` - emptying the extracted answer touches nothing else
-/

namespace Questionnaire

/-- What a scope holds after a write of one of the scopes. -/
theorem Scopes.valueAt?_write {scope : Json} (name : Assoc.IsName scope) (scopes : Scopes)
    (patch : Fields) (other : Json) :
    Assoc.valueAt? other (scopes.write scope patch) =
      if scope == other then
        some (Assoc.overlay ((Assoc.valueAt? scope scopes).getD []) (written patch))
      else Assoc.valueAt? other scopes := by
  rw [write, Assoc.valueAt?_append, Assoc.valueAt?_remove name, Assoc.valueAt?_cons]
  by_cases h : (scope == other) = true
  · rw [if_pos h, if_pos h, if_pos h, Option.none_or]
  · rw [if_neg h, if_neg h, if_neg h, Assoc.valueAt?_nil, Option.or_none]

namespace MemoryStore

/-- The pointer of a user. -/
def pointer? (m : MemoryStore) (user : String) : Option Pointer := Assoc.valueAt? user m.pointers

/-- The value that a scope of a user holds itself. -/
def own? (m : MemoryStore) (user : String) (scope key : Json) : Option Json :=
  Assoc.valueAt? key ((Assoc.valueAt? scope (m.scopes user)).getD [])

/-- The store after a patch of a scope that is a key. -/
def patched (m : MemoryStore) (user : String) (scope : Json) (patch : Fields) : MemoryStore :=
  { m with fields := Assoc.put user ((m.scopes user).write scope patch) m.fields }

variable {m m' m'' : MemoryStore} {user : String} {scope : Json}

theorem getFields_of_isKey (h : scope.isKey = true) (m : MemoryStore) (user : String) :
    Store.getFields m user scope = .ok ((m.scopes user).read scope) := by
  show m.getFields user scope = _
  rw [getFields, (Json.asKey_eq_ok_iff scope scope).2 ⟨h, rfl⟩]
  rfl

theorem setFields_of_isKey (h : scope.isKey = true) (m : MemoryStore) (user : String)
    (patch : Fields) : Store.setFields m user scope patch = .ok (m.patched user scope patch) := by
  show m.setFields user scope patch = _
  rw [setFields, (Json.asKey_eq_ok_iff scope scope).2 ⟨h, rfl⟩]
  rfl

/-! ## Pointers -/

theorem pointer?_savePointer (m : MemoryStore) (user other : String) (p : Pointer) :
    (m.savePointer user p).pointer? other = if user = other then some p else m.pointer? other := by
  simp [pointer?, savePointer, Assoc.valueAt?_put (Assoc.isName_of_lawful user)]

theorem pointer?_deletePointer (m : MemoryStore) (user other : String) :
    (m.deletePointer user).pointer? other = if user = other then none else m.pointer? other := by
  simp [pointer?, deletePointer, Assoc.valueAt?_remove (Assoc.isName_of_lawful user)]

@[simp] theorem pointer?_savePointer_self (m : MemoryStore) (user : String) (p : Pointer) :
    (m.savePointer user p).pointer? user = some p := by
  rw [pointer?_savePointer, if_pos rfl]

@[simp] theorem pointer?_deletePointer_self (m : MemoryStore) (user : String) :
    (m.deletePointer user).pointer? user = none := by
  rw [pointer?_deletePointer, if_pos rfl]

@[simp] theorem pointer?_patched (m : MemoryStore) (user other : String) (scope : Json)
    (patch : Fields) : (m.patched user scope patch).pointer? other = m.pointer? other := rfl

@[simp] theorem pointer?_appendCompletion (m : MemoryStore) (user other : String)
    (r : CompletionRecord) : (m.appendCompletion user r).pointer? other = m.pointer? other := rfl

/-! ## Histories -/

@[simp] theorem records_savePointer (m : MemoryStore) (user other : String) (p : Pointer) :
    (m.savePointer user p).records other = m.records other := rfl

@[simp] theorem records_deletePointer (m : MemoryStore) (user other : String) :
    (m.deletePointer user).records other = m.records other := rfl

@[simp] theorem records_patched (m : MemoryStore) (user other : String) (scope : Json)
    (patch : Fields) : (m.patched user scope patch).records other = m.records other := rfl

theorem records_appendCompletion (m : MemoryStore) (user other : String) (r : CompletionRecord) :
    (m.appendCompletion user r).records other =
      if user = other then m.records user ++ [r] else m.records other := by
  unfold records
  rw [appendCompletion, Assoc.valueAt?_put (Assoc.isName_of_lawful user)]
  by_cases h : user = other
  · simp [h, records]
  · simp [h]

@[simp] theorem records_appendCompletion_self (m : MemoryStore) (user : String)
    (r : CompletionRecord) : (m.appendCompletion user r).records user = m.records user ++ [r] := by
  rw [records_appendCompletion, if_pos rfl]

/-! ## Scopes -/

@[simp] theorem scopes_savePointer (m : MemoryStore) (user other : String) (p : Pointer) :
    (m.savePointer user p).scopes other = m.scopes other := rfl

@[simp] theorem scopes_deletePointer (m : MemoryStore) (user other : String) :
    (m.deletePointer user).scopes other = m.scopes other := rfl

@[simp] theorem scopes_appendCompletion (m : MemoryStore) (user other : String)
    (r : CompletionRecord) : (m.appendCompletion user r).scopes other = m.scopes other := rfl

theorem scopes_patched (m : MemoryStore) (user other : String) (scope : Json) (patch : Fields) :
    (m.patched user scope patch).scopes other =
      if user = other then (m.scopes user).write scope patch else m.scopes other := by
  unfold scopes
  rw [patched, Assoc.valueAt?_put (Assoc.isName_of_lawful user)]
  by_cases h : user = other
  · simp [h, scopes]
  · simp [h]

@[simp] theorem scopes_patched_self (m : MemoryStore) (user : String) (scope : Json)
    (patch : Fields) :
    (m.patched user scope patch).scopes user = (m.scopes user).write scope patch := by
  rw [scopes_patched, if_pos rfl]

/-- The value that a scope holds after a patch of a scope: the last value that was written under the
key, if there is one. -/
theorem own?_patched {patch : Fields} (hscope : scope.isKey = true)
    (names : ∀ e ∈ patch, Assoc.IsName e.1) (m : MemoryStore) (user : String) (other key : Json) :
    (m.patched user scope patch).own? user other key =
      if scope == other then
        (Assoc.valueAt? key (Scopes.written patch).reverse).or (m.own? user other key)
      else m.own? user other key := by
  have name := Json.isName_of_isKey hscope
  unfold own?
  rw [scopes_patched_self, Scopes.valueAt?_write name]
  by_cases h : (scope == other) = true
  · have names' : ∀ e ∈ Scopes.written patch, Assoc.IsName e.1 :=
      fun e he => names e ((List.mem_filter.1 he).1)
    have hsame : (other == scope) = true := by rw [← name.symm]; exact h
    rw [if_pos h, if_pos h, Option.getD_some, Assoc.valueAt?_overlay names',
      Assoc.valueAt?_congr name hsame]
  · rw [if_neg h, if_neg h]

/-- A patch leaves the values under all other keys alone. -/
theorem own?_patched_of_forall_ne {patch : Fields} {key : Json} (hscope : scope.isKey = true)
    (names : ∀ e ∈ patch, Assoc.IsName e.1) (hfree : ∀ e ∈ patch, (e.1 == key) = false)
    (m : MemoryStore) (user : String) (other : Json) :
    (m.patched user scope patch).own? user other key = m.own? user other key := by
  have hnone : Assoc.valueAt? key (Scopes.written patch).reverse = none :=
    Assoc.valueAt?_eq_none fun e he => hfree e (List.mem_filter.1 (List.mem_reverse.1 he)).1
  rw [own?_patched hscope names, hnone, Option.none_or, ite_self]

/-! ## Nothing changed -/

/-- The views of a user are what they were, except perhaps for the extracted answer. -/
structure Untouched (user : String) (m m' : MemoryStore) : Prop where
  /-- The pointer is the same. -/
  pointer : m'.pointer? user = m.pointer? user
  /-- The history is the same. -/
  records : m'.records user = m.records user
  /-- Every scope holds the same values. -/
  own : ∀ scope key, key ≠ Bookkeeping.transient →
    m'.own? user scope key = m.own? user scope key

namespace Untouched

theorem refl (user : String) (m : MemoryStore) : Untouched user m m :=
  ⟨rfl, rfl, fun _ _ _ => rfl⟩

theorem trans (h : Untouched user m m') (h' : Untouched user m' m'') : Untouched user m m'' :=
  ⟨h'.pointer.trans h.pointer, h'.records.trans h.records,
    fun scope key hkey => (h'.own scope key hkey).trans (h.own scope key hkey)⟩

end Untouched

/-- What a scope holds after the extracted answer was written. -/
theorem own?_patched_transient (hscope : scope.isKey = true) (m : MemoryStore) (user : String)
    (text : String) (other key : Json) :
    (m.patched user scope [(Bookkeeping.transient, .str text)]).own? user other key =
      if scope == other && key == Bookkeeping.transient then some (.str text)
      else m.own? user other key := by
  have names : ∀ e ∈ [(Bookkeeping.transient, Json.str text)], Assoc.IsName e.1 := by
    intro e he
    rw [List.mem_singleton.1 he]
    exact Json.isName_str _
  have hwritten : (Scopes.written [(Bookkeeping.transient, Json.str text)]).reverse =
      [(Bookkeeping.transient, .str text)] := rfl
  have hsymm : (Bookkeeping.transient == key) = (key == Bookkeeping.transient) :=
    (Json.isName_str _).symm key
  rw [own?_patched hscope names, hwritten, Assoc.valueAt?_cons, Assoc.valueAt?_nil, hsymm]
  cases scope == other with
  | true =>
    cases key == Bookkeeping.transient <;> rfl
  | false => rfl

/-- Emptying the extracted answer touches nothing else. -/
theorem untouched_clear (hscope : scope.isKey = true) (m : MemoryStore) (user : String)
    (text : String) :
    Untouched user m (m.patched user scope [(Bookkeeping.transient, .str text)]) where
  pointer := rfl
  records := rfl
  own other key hkey := by
    rw [own?_patched_transient hscope, if_neg]
    intro h
    exact hkey ((Json.beq_str _ _).1 (Bool.and_eq_true_iff.1 h).2)

/-- A new pointer touches nothing exactly when it stood there before. -/
theorem untouched_savePointer_iff (hp : m'.pointer? user = m.pointer? user) (p : Pointer) :
    Untouched user m (m'.savePointer user p) ↔
      Untouched user m m' ∧ m.pointer? user = some p := by
  constructor
  · intro h
    refine ⟨⟨hp, h.records, h.own⟩, ?_⟩
    rw [← h.pointer, pointer?_savePointer_self]
  · rintro ⟨h, hp⟩
    exact ⟨by rw [pointer?_savePointer_self, hp], h.records, h.own⟩

/-- A longer history is a change. -/
theorem not_untouched_of_lt (h : (m.records user).length < (m'.records user).length) :
    ¬ Untouched user m m' := by
  intro same
  rw [same.records] at h
  exact Nat.lt_irrefl _ h

/-! ## Other users -/

/-- What is kept of all users but one is what it was. -/
structure Elsewhere (user : String) (m m' : MemoryStore) : Prop where
  /-- Their pointers are the same. -/
  pointer : ∀ other, other ≠ user → m'.pointer? other = m.pointer? other
  /-- Their histories are the same. -/
  records : ∀ other, other ≠ user → m'.records other = m.records other
  /-- Their scopes are the same. -/
  scopes : ∀ other, other ≠ user → m'.scopes other = m.scopes other

namespace Elsewhere

theorem refl (user : String) (m : MemoryStore) : Elsewhere user m m :=
  ⟨fun _ _ => rfl, fun _ _ => rfl, fun _ _ => rfl⟩

theorem trans (h : Elsewhere user m m') (h' : Elsewhere user m' m'') : Elsewhere user m m'' where
  pointer other hne := (h'.pointer other hne).trans (h.pointer other hne)
  records other hne := (h'.records other hne).trans (h.records other hne)
  scopes other hne := (h'.scopes other hne).trans (h.scopes other hne)

theorem savePointer (m : MemoryStore) (user : String) (p : Pointer) :
    Elsewhere user m (m.savePointer user p) where
  pointer other hne := by rw [pointer?_savePointer, if_neg hne.symm]
  records _ _ := rfl
  scopes _ _ := rfl

theorem deletePointer (m : MemoryStore) (user : String) :
    Elsewhere user m (m.deletePointer user) where
  pointer other hne := by rw [pointer?_deletePointer, if_neg hne.symm]
  records _ _ := rfl
  scopes _ _ := rfl

theorem patched (m : MemoryStore) (user : String) (scope : Json) (patch : Fields) :
    Elsewhere user m (m.patched user scope patch) where
  pointer _ _ := rfl
  records _ _ := rfl
  scopes other hne := by rw [scopes_patched, if_neg hne.symm]

theorem appendCompletion (m : MemoryStore) (user : String) (r : CompletionRecord) :
    Elsewhere user m (m.appendCompletion user r) where
  pointer _ _ := rfl
  records other hne := by rw [records_appendCompletion, if_neg hne.symm]
  scopes _ _ := rfl

end Elsewhere

end MemoryStore

end Questionnaire
