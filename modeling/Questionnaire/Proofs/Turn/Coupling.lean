import Questionnaire.Proofs.Turn.Run

/-!
# Two runs side by side

A turn is run twice, in two worlds that differ in things it should not depend on.  A coupling says
which worlds one user cannot tell apart.  The operations of a turn keep coupled worlds coupled, so
every computation that is built from them does.

## Main Definitions

* `Outcome.Agree` - two outcomes fail for the same reason, or succeed with related results
* `Coupling` - worlds that a user cannot tell apart, and session identifiers that may stand for each
  other
* `Coupling.Ties` - two computations agree in coupled worlds and leave coupled worlds behind
* `MemoryStore.Alike` - two stores keep the same of one user, identifiers of sessions aside
* `Coupling.same`, `Coupling.apart` - the coupling of worlds that are equal, and of worlds whose
  stores are alike for one user

## Main Statements

* `Coupling.Ties.bind` - computations that are tied step by step are tied
* `MemoryStore.Alike.patched`, … - every write keeps stores alike

## Design Notes

The counter of sessions is shared by all users.  Two runs of one user among different others
therefore take different identifiers, and what is tied is only that both take one.
-/

namespace Questionnaire

/-! ## Outcomes -/

namespace Outcome

variable {α β γ δ : Type}

/-- Two outcomes agree: they fail for the same reason, or succeed with related results. -/
inductive Agree (S : α → β → Prop) : Except Fault α → Except Fault β → Prop where
  /-- Both succeed. -/
  | ok {a : α} {b : β} (h : S a b) : Agree S (.ok a) (.ok b)
  /-- Both fail. -/
  | error (e : Fault) : Agree S (.error e) (.error e)

namespace Agree

variable {S : α → β → Prop} {T : γ → δ → Prop}

/-- An outcome agrees with itself. -/
theorem refl {S : α → α → Prop} (hS : ∀ a, S a a) (x : Except Fault α) : Agree S x x := by
  cases x with
  | ok a => exact .ok (hS a)
  | error e => exact .error e

theorem eq {x y : Except Fault α} (h : Agree Eq x y) : x = y := by
  cases h with
  | ok h => rw [h]
  | error e => rfl

/-- What is the same of related results is the same of the outcomes. -/
theorem map_eq {x : Except Fault α} {y : Except Fault β} {g : α → γ} {g' : β → γ}
    (h : Agree S x y) (hg : ∀ a b, S a b → g a = g' b) : x.map g = y.map g' := by
  cases h with
  | ok h => exact congrArg Except.ok (hg _ _ h)
  | error e => rfl

/-- Computations that agree step by step agree. -/
theorem bind {x : Except Fault α} {y : Except Fault β} {k : α → Except Fault γ}
    {l : β → Except Fault δ} (h : Agree S x y) (hk : ∀ a b, S a b → Agree T (k a) (l b)) :
    Agree T (x >>= k) (y >>= l) := by
  cases h with
  | ok h => exact hk _ _ h
  | error e => exact .error e

/-- A first step that both computations share. -/
theorem bind_same {x : Except Fault α} {k : α → Except Fault γ} {l : α → Except Fault δ}
    (hk : ∀ a, x = .ok a → Agree T (k a) (l a)) : Agree T (x >>= k) (x >>= l) := by
  cases x with
  | ok a => exact hk a rfl
  | error e => exact .error e

end Agree

end Outcome

open Outcome (Agree)

/-! ## What is related by session identifiers -/

/-- A pointer without the identifier of its passage. -/
def Pointer.untagged (p : Pointer) : Pointer := { p with sessionId := .null }

/-- A completion without the identifier of its passage. -/
def CompletionRecord.untagged (r : CompletionRecord) : CompletionRecord :=
  { r with sessionId := .null }

/-- Two pointers stand at the same place, and the identifiers of their passages are related. -/
inductive Pointer.Matches (ids : Json → Json → Prop) : Pointer → Pointer → Prop where
  /-- The same place with two identifiers. -/
  | intro (p : Pointer) {id id' : Json} (h : ids id id') :
      Matches ids { p with sessionId := id } { p with sessionId := id' }

/-- Two completions tell of the same, and the identifiers of their passages are related. -/
inductive CompletionRecord.Matches (ids : Json → Json → Prop) :
    CompletionRecord → CompletionRecord → Prop where
  /-- The same completion with two identifiers. -/
  | intro (r : CompletionRecord) {id id' : Json} (h : ids id id') :
      Matches ids { r with sessionId := id } { r with sessionId := id' }

namespace Pointer

variable {ids : Json → Json → Prop} {p p' : Pointer}

theorem Matches.refl (p : Pointer) : Matches Eq p p := .intro p rfl

theorem Matches.eq (h : Matches Eq p p') : p = p' := by
  cases h with
  | intro p h => rw [h]

theorem Matches.untagged (h : Matches ids p p') : p.untagged = p'.untagged := by
  cases h
  rfl

theorem Matches.isTerminal (h : Matches ids p p') : p.isTerminal = p'.isTerminal := by
  cases h
  rfl

theorem Matches.advance (h : Matches ids p p') (qid stageKey : Json) :
    Matches ids (p.advance qid stageKey) (p'.advance qid stageKey) := by
  cases h with
  | intro p h => exact .intro (p.advance qid stageKey) h

/-- Pointers at the same place match when any two identifiers are related. -/
theorem matches_of_untagged (h : p.untagged = p'.untagged) : Matches (fun _ _ => True) p p' := by
  obtain ⟨section_, position, stageKey, status, id⟩ := p
  obtain ⟨section', position', stageKey', status', id'⟩ := p'
  cases h
  exact .intro ⟨section_, position, stageKey, status, .null⟩ trivial

end Pointer

theorem CompletionRecord.Matches.eq {r r' : CompletionRecord} (h : Matches Eq r r') : r = r' := by
  cases h with
  | intro r h => rw [h]

theorem CompletionRecord.Matches.untagged {ids : Json → Json → Prop} {r r' : CompletionRecord}
    (h : Matches ids r r') : r.untagged = r'.untagged := by
  cases h
  rfl

/-! ## Couplings -/

/-- Worlds that a user cannot tell apart, and session identifiers that may stand for each other:
what is read is the same, and what is written keeps the worlds coupled. -/
structure Coupling (σ : Type) [Store σ] (user : String) where
  /-- The worlds that cannot be told apart. -/
  worlds : World σ → World σ → Prop
  /-- The identifiers that may stand for each other. -/
  ids : Json → Json → Prop
  /-- It is the same time. -/
  now {w w' : World σ} : worlds w w' → w.now = w'.now
  /-- A session is taken in both. -/
  session {w w' : World σ} : worlds w w' →
    ids (.str (sessionText (w.sessions + 1))) (.str (sessionText (w'.sessions + 1))) ∧
      worlds { w with sessions := w.sessions + 1 } { w' with sessions := w'.sessions + 1 }
  /-- A scope is read. -/
  getFields {w w' : World σ} : worlds w w' → ∀ scope,
    Store.getFields w.store user scope = Store.getFields w'.store user scope
  /-- A scope is written. -/
  setFields {w w' : World σ} : worlds w w' → ∀ scope patch,
    Agree (fun s s' => worlds { w with store := s } { w' with store := s' })
      (Store.setFields w.store user scope patch) (Store.setFields w'.store user scope patch)
  /-- The pointer is read. -/
  getPointer {w w' : World σ} : worlds w w' → Agree (Option.Rel (Pointer.Matches ids))
    (Store.getPointer w.store user) (Store.getPointer w'.store user)
  /-- The pointer is written. -/
  savePointer {w w' : World σ} {p p' : Pointer} : worlds w w' → p.Matches ids p' →
    Agree (fun s s' => worlds { w with store := s } { w' with store := s' })
      (Store.savePointer w.store user p) (Store.savePointer w'.store user p')
  /-- The pointer is removed. -/
  deletePointer {w w' : World σ} : worlds w w' →
    Agree (fun s s' => worlds { w with store := s } { w' with store := s' })
      (Store.deletePointer w.store user) (Store.deletePointer w'.store user)
  /-- A completion is recorded. -/
  appendCompletion {w w' : World σ} {r r' : CompletionRecord} : worlds w w' → r.Matches ids r' →
    Agree (fun s s' => worlds { w with store := s } { w' with store := s' })
      (Store.appendCompletion w.store user r) (Store.appendCompletion w'.store user r')

namespace Coupling

variable {σ α β γ δ : Type} [Store σ] {user : String}

/-- Two computations agree in coupled worlds, and leave coupled worlds behind, also when they
fail. -/
def Ties (C : Coupling σ user) (S : α → β → Prop) (x : TurnM σ α) (y : TurnM σ β) : Prop :=
  ∀ w w', C.worlds w w' →
    Agree S (x.run w).1 (y.run w').1 ∧ C.worlds (x.run w).2 (y.run w').2

variable {C : Coupling σ user} {S : α → β → Prop} {T : γ → δ → Prop}

/-! ### Rules for computations -/

theorem ties_pure {a : α} {b : β} (h : S a b) : C.Ties S (pure a) (pure b) :=
  fun _ _ hw => ⟨.ok h, hw⟩

theorem ties_throw (e : Fault) : C.Ties S (throw e) (throw e) := fun _ _ hw => ⟨.error e, hw⟩

theorem ties_lift {x : Except Fault α} {y : Except Fault β} (h : Agree S x y) :
    C.Ties S (TurnM.lift x) (TurnM.lift y) := by
  intro w w' hw
  rw [TurnM.run_lift, TurnM.run_lift]
  exact ⟨h, hw⟩

theorem ties_get : C.Ties C.worlds get get := fun _ _ hw => ⟨.ok hw, hw⟩

theorem ties_set {v v' : World σ} (h : C.worlds v v') : C.Ties Eq (set v) (set v') :=
  fun _ _ _ => ⟨.ok rfl, h⟩

/-- Computations that are tied step by step are tied. -/
theorem Ties.bind {x : TurnM σ α} {y : TurnM σ β} {k : α → TurnM σ γ} {l : β → TurnM σ δ}
    (h : C.Ties S x y) (hk : ∀ a b, S a b → C.Ties T (k a) (l b)) :
    C.Ties T (x >>= k) (y >>= l) := by
  intro w w' hw
  obtain ⟨hagree, hworlds⟩ := h w w' hw
  rw [TurnM.run_bind, TurnM.run_bind]
  generalize x.run w = o at hagree hworlds ⊢
  generalize y.run w' = o' at hagree hworlds ⊢
  obtain ⟨r, v⟩ := o
  obtain ⟨r', v'⟩ := o'
  cases hagree with
  | ok hS => exact hk _ _ hS v v' hworlds
  | error e => exact ⟨.error e, hworlds⟩

/-- A first step that gives both computations the same. -/
theorem Ties.bind_eq {x y : TurnM σ α} {k : α → TurnM σ γ} {l : α → TurnM σ δ}
    (h : C.Ties Eq x y) (hk : ∀ a, C.Ties T (k a) (l a)) : C.Ties T (x >>= k) (y >>= l) := by
  refine h.bind ?_
  rintro a _ rfl
  exact hk a

/-- A first step that both computations share and that looks at no world. -/
theorem ties_lift_bind {x : Except Fault α} {k : α → TurnM σ γ} {l : α → TurnM σ δ}
    (hk : ∀ a, x = .ok a → C.Ties T (k a) (l a)) :
    C.Ties T (TurnM.lift x >>= k) (TurnM.lift x >>= l) := by
  cases x with
  | ok a => exact hk a rfl
  | error e => exact ties_throw e

/-! ### Rules for the operations of a turn -/

/-- A fresh session is taken in both worlds. -/
theorem ties_freshSession :
    C.Ties (fun a b => C.ids (.str a) (.str b)) TurnM.freshSession TurnM.freshSession := by
  refine ties_get.bind fun w w' hw => ?_
  obtain ⟨hids, hworlds⟩ := C.session hw
  exact (ties_set hworlds).bind_eq fun _ => ties_pure hids

/-- Both stores are changed, or the change fails in both. -/
theorem ties_changeStore {g g' : σ → Except Fault σ}
    (h : ∀ w w', C.worlds w w' →
      Agree (fun s s' => C.worlds { w with store := s } { w' with store := s' })
        (g w.store) (g' w'.store)) :
    C.Ties Eq (TurnM.changeStore g) (TurnM.changeStore g') :=
  ties_get.bind fun w w' hw => (ties_lift (h w w' hw)).bind fun _ _ => ties_set

theorem ties_getFields (scope : Json) :
    C.Ties Eq (TurnM.getFields user scope) (TurnM.getFields user scope) := by
  refine ties_get.bind fun w w' hw => ties_lift ?_
  rw [C.getFields hw scope]
  exact .refl (fun _ => rfl) _

theorem ties_setFields (scope : Json) (patch : Fields) :
    C.Ties Eq (TurnM.setFields user scope patch) (TurnM.setFields user scope patch) :=
  ties_changeStore fun _ _ hw => C.setFields hw scope patch

theorem ties_getPointer :
    C.Ties (Option.Rel (Pointer.Matches C.ids)) (TurnM.getPointer user) (TurnM.getPointer user) :=
  ties_get.bind fun _ _ hw => ties_lift (C.getPointer hw)

theorem ties_savePointer {p p' : Pointer} (h : p.Matches C.ids p') :
    C.Ties Eq (TurnM.savePointer user p) (TurnM.savePointer user p') :=
  ties_changeStore fun _ _ hw => C.savePointer hw h

theorem ties_deletePointer :
    C.Ties Eq (TurnM.deletePointer user) (TurnM.deletePointer user) :=
  ties_changeStore fun _ _ hw => C.deletePointer hw

theorem ties_appendCompletion (section_ position : Json) {id id' : Json} (h : C.ids id id') :
    C.Ties (CompletionRecord.Matches C.ids) (TurnM.appendCompletion user section_ id position)
      (TurnM.appendCompletion user section_ id' position) := by
  refine ties_get.bind fun w w' hw => ?_
  rw [C.now hw]
  have hmatches := CompletionRecord.Matches.intro ⟨section_, position, .null, .str w'.now⟩ h
  exact (ties_changeStore fun _ _ hw => C.appendCompletion hw hmatches).bind_eq
    fun _ => ties_pure hmatches

/-! ### The same world -/

/-- Every world is coupled with itself only. -/
def same (σ : Type) [Store σ] (user : String) : Coupling σ user where
  worlds := Eq
  ids := Eq
  now h := congrArg World.now h
  session h := by
    subst h
    exact ⟨rfl, rfl⟩
  getFields h scope := by rw [h]
  setFields h scope patch := by
    subst h
    refine .refl (fun _ => ?_) _
    rfl
  getPointer h := by
    subst h
    refine .refl (fun p? => ?_) _
    cases p? with
    | none => exact .none
    | some p => exact .some (.refl p)
  savePointer h hp := by
    subst h
    rw [hp.eq]
    refine .refl (fun _ => ?_) _
    rfl
  deletePointer h := by
    subst h
    refine .refl (fun _ => ?_) _
    rfl
  appendCompletion h hr := by
    subst h
    rw [hr.eq]
    refine .refl (fun _ => ?_) _
    rfl

end Coupling

/-! ## Stores that keep the same of one user -/

/-- Two stores keep the same of a user, the identifiers of sessions aside. -/
structure MemoryStore.Alike (user : String) (m m' : MemoryStore) : Prop where
  /-- The scopes are the same. -/
  scopes : m.scopes user = m'.scopes user
  /-- The pointers stand at the same place. -/
  pointer : (m.pointer? user).map Pointer.untagged = (m'.pointer? user).map Pointer.untagged
  /-- The same sections were completed at the same times. -/
  records : (m.records user).map CompletionRecord.untagged =
    (m'.records user).map CompletionRecord.untagged

namespace MemoryStore.Alike

variable {user : String} {m m' m'' : MemoryStore}

theorem refl (user : String) (m : MemoryStore) : Alike user m m := ⟨rfl, rfl, rfl⟩

theorem trans (h : Alike user m m') (h' : Alike user m' m'') : Alike user m m'' :=
  ⟨h.scopes.trans h'.scopes, h.pointer.trans h'.pointer, h.records.trans h'.records⟩

theorem patched (h : Alike user m m') (scope : Json) (patch : Fields) :
    Alike user (m.patched user scope patch) (m'.patched user scope patch) where
  scopes := by rw [scopes_patched_self, scopes_patched_self, h.scopes]
  pointer := h.pointer
  records := h.records

theorem savePointer (h : Alike user m m') {p p' : Pointer} (hp : p.untagged = p'.untagged) :
    Alike user (m.savePointer user p) (m'.savePointer user p') where
  scopes := h.scopes
  pointer := by
    rw [pointer?_savePointer_self, pointer?_savePointer_self, Option.map_some, Option.map_some, hp]
  records := h.records

theorem deletePointer (h : Alike user m m') :
    Alike user (m.deletePointer user) (m'.deletePointer user) where
  scopes := h.scopes
  pointer := by rw [pointer?_deletePointer_self, pointer?_deletePointer_self]
  records := h.records

theorem appendCompletion (h : Alike user m m') {r r' : CompletionRecord}
    (hr : r.untagged = r'.untagged) :
    Alike user (m.appendCompletion user r) (m'.appendCompletion user r') where
  scopes := h.scopes
  pointer := h.pointer
  records := by
    rw [records_appendCompletion_self, records_appendCompletion_self, List.map_append,
      List.map_append, h.records, List.map_singleton, List.map_singleton, hr]

/-- What another user does is not seen. -/
theorem of_elsewhere {other : String} (h : Elsewhere other m m') (hne : user ≠ other) :
    Alike user m' m where
  scopes := h.scopes user hne
  pointer := by rw [h.pointer user hne]
  records := by rw [h.records user hne]

/-- Pointers that are kept alike match. -/
theorem matches_pointer (h : Alike user m m') :
    Option.Rel (Pointer.Matches fun _ _ => True) (m.pointer? user) (m'.pointer? user) := by
  have hpointer := h.pointer
  cases hp : m.pointer? user with
  | none =>
    rw [hp, Option.map_none, eq_comm, Option.map_eq_none_iff] at hpointer
    rw [hpointer]
    exact .none
  | some p =>
    rw [hp, Option.map_some, eq_comm, Option.map_eq_some_iff] at hpointer
    obtain ⟨p', hp', heq⟩ := hpointer
    rw [hp']
    exact .some (Pointer.matches_of_untagged heq.symm)

end MemoryStore.Alike

/-- Worlds are coupled that keep the same of one user, identifiers of sessions aside, and show the
same time. -/
def Coupling.apart (user : String) : Coupling MemoryStore user where
  worlds w w' := w.store.Alike user w'.store ∧ w.now = w'.now
  ids _ _ := True
  now h := h.2
  session h := ⟨trivial, h⟩
  getFields h scope := by
    show MemoryStore.getFields _ _ _ = MemoryStore.getFields _ _ _
    rw [MemoryStore.getFields, MemoryStore.getFields, h.1.scopes]
  setFields h scope patch :=
    Agree.bind_same fun key _ => .ok ⟨h.1.patched key patch, h.2⟩
  getPointer h := .ok h.1.matches_pointer
  savePointer h hp := .ok ⟨h.1.savePointer hp.untagged, h.2⟩
  deletePointer h := .ok ⟨h.1.deletePointer, h.2⟩
  appendCompletion h hr := .ok ⟨h.1.appendCompletion hr.untagged, h.2⟩

end Questionnaire
