import Questionnaire.Proofs.Outcome
import Questionnaire.Proofs.Store.Memory
import Questionnaire.Turn.World

/-!
# Running a turn

A computation that acts on a world gives an outcome and the world that it leaves behind, also when
it fails.

## Main Statements

* `TurnM.run_bind` - a failure leaves the world as the failing step left it
* `TurnM.run_bind_eq_ok_iff` - where a result comes from
-/

namespace Questionnaire

namespace TurnM

variable {σ α β : Type}

@[simp] theorem run_pure (a : α) (w : World σ) : (pure a : TurnM σ α).run w = (.ok a, w) := rfl

@[simp] theorem run_throw (e : Fault) (w : World σ) :
    (throw e : TurnM σ α).run w = (.error e, w) := rfl

@[simp] theorem run_get (w : World σ) : (get : TurnM σ (World σ)).run w = (.ok w, w) := rfl

@[simp] theorem run_set (w w' : World σ) : (set w' : TurnM σ PUnit).run w = (.ok ⟨⟩, w') := rfl

@[simp] theorem run_lift (x : Except Fault α) (w : World σ) : (lift x).run w = (x, w) := by
  cases x <;> rfl

/-- A failing step ends a computation, and leaves the world to it. -/
theorem run_bind (x : TurnM σ α) (k : α → TurnM σ β) (w : World σ) :
    (x >>= k).run w =
      match x.run w with
      | (.ok a, w') => (k a).run w'
      | (.error e, w') => (.error e, w') := by
  show (match x.run w with | (r, w') => (ExceptT.bindCont k r : StateM (World σ) _) w') = _
  rcases x.run w with ⟨_ | a, w'⟩ <;> rfl

theorem run_get_bind (k : World σ → TurnM σ β) (w : World σ) :
    (get >>= k : TurnM σ β).run w = (k w).run w := rfl

theorem run_lift_bind (x : Except Fault α) (k : α → TurnM σ β) (w : World σ) :
    (lift x >>= k).run w =
      match x with
      | .ok a => (k a).run w
      | .error e => (.error e, w) := by
  rw [run_bind, run_lift]
  cases x <;> rfl

theorem run_bind_eq_ok_iff {x : TurnM σ α} {k : α → TurnM σ β} {w w'' : World σ} {b : β} :
    (x >>= k).run w = (.ok b, w'') ↔
      ∃ a w', x.run w = (.ok a, w') ∧ (k a).run w' = (.ok b, w'') := by
  rw [run_bind]
  rcases h : x.run w with ⟨_ | a, w'⟩
  · constructor
    · intro h'
      cases h'
    · rintro ⟨a, w₁, h', -⟩
      cases h'
  · constructor
    · intro h'
      exact ⟨a, w', rfl, h'⟩
    · rintro ⟨a₁, w₁, h', h''⟩
      cases h'
      exact h''

theorem lift_pure (a : α) : (lift (pure a) : TurnM σ α) = pure a := rfl

/-- Failures of a computation are those of its steps. -/
theorem lift_bind (x : Except Fault α) (k : α → Except Fault β) :
    (lift (x >>= k) : TurnM σ β) = lift x >>= fun a => lift (k a) := by
  cases x with
  | ok a => rfl
  | error e => rfl

/-- Computations are the same when they run alike in every world. -/
theorem ext_run {x y : TurnM σ α} (h : ∀ w, x.run w = y.run w) : x = y := funext h

section Memory

variable {user : String} {scope : Json} (w : World MemoryStore)

@[simp] theorem run_getPointer (user : String) :
    (getPointer user : TurnM MemoryStore _).run w = (.ok (w.store.pointer? user), w) := rfl

@[simp] theorem run_savePointer (user : String) (p : Pointer) :
    (savePointer user p : TurnM MemoryStore _).run w =
      (.ok (), { w with store := w.store.savePointer user p }) := rfl

@[simp] theorem run_deletePointer (user : String) :
    (deletePointer user : TurnM MemoryStore _).run w =
      (.ok (), { w with store := w.store.deletePointer user }) := rfl

theorem run_getFields (h : scope.isKey = true) (user : String) :
    (getFields user scope : TurnM MemoryStore _).run w =
      (.ok ((w.store.scopes user).read scope), w) := by
  rw [getFields, run_get_bind, run_lift, MemoryStore.getFields_of_isKey h]

theorem run_setFields (h : scope.isKey = true) (user : String) (patch : Fields) :
    (setFields user scope patch : TurnM MemoryStore _).run w =
      (.ok (), { w with store := w.store.patched user scope patch }) := by
  rw [setFields, changeStore, run_get_bind, MemoryStore.setFields_of_isKey h]
  rfl

end Memory

end TurnM

end Questionnaire
