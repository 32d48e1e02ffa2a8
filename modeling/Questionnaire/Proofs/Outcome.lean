import Questionnaire.Fault

/-!
# Outcomes

A computation that may fail is taken apart step by step: what it gives, its last step gave, and all
steps before gave what the later ones used.

## Main Definitions

* `Outcome.Gives` - a computation succeeds with a result of some kind

## Main Statements

* `Outcome.bind_eq_ok_iff`, `Outcome.bind_eq_error_iff` - where an outcome comes from
-/

namespace Questionnaire.Outcome

variable {ε α β : Type}

@[simp] theorem ok_bind (a : α) (k : α → Except ε β) : (Except.ok a >>= k) = k a := rfl

@[simp] theorem error_bind (e : ε) (k : α → Except ε β) :
    (Except.error e >>= k) = .error e := rfl

@[simp] theorem pure_eq_ok (a : α) : (pure a : Except ε α) = .ok a := rfl

theorem bind_eq_ok_iff {x : Except ε α} {k : α → Except ε β} {b : β} :
    (x >>= k) = .ok b ↔ ∃ a, x = .ok a ∧ k a = .ok b := by
  cases x with
  | ok a => simp
  | error e => simp

theorem bind_eq_error_iff {x : Except ε α} {k : α → Except ε β} {e : ε} :
    (x >>= k) = .error e ↔ x = .error e ∨ ∃ a, x = .ok a ∧ k a = .error e := by
  cases x with
  | ok a => simp
  | error e => simp

/-- Two computations agree that go on alike from every result of their first step. -/
theorem bind_congr_of_ok {x : Except ε α} {k k' : α → Except ε β}
    (h : ∀ a, x = .ok a → k a = k' a) : (x >>= k) = (x >>= k') := by
  cases x with
  | ok a => exact h a rfl
  | error e => rfl

theorem map_eq_ok_iff {g : α → β} {x : Except ε α} {b : β} :
    g <$> x = .ok b ↔ ∃ a, x = .ok a ∧ g a = b := by
  cases x with
  | ok a => exact ⟨fun h => ⟨a, rfl, Except.ok.inj h⟩, by rintro ⟨_, ⟨⟩, rfl⟩; rfl⟩
  | error e => exact ⟨nofun, nofun⟩

/-- A computation succeeds, and its result has a property. -/
def Gives (x : Except Fault α) (P : α → Prop) : Prop := ∃ a, x = .ok a ∧ P a

instance decidableGives (x : Except Fault α) (P : α → Prop) [DecidablePred P] :
    Decidable (Gives x P) :=
  match x with
  | .ok a => decidable_of_iff (P a) (by simp [Gives])
  | .error _ => isFalse (by simp [Gives])

/-- Every step of a traversal that succeeds has succeeded. -/
theorem ok_of_mapM {g : α → Except Fault β} {xs : List α} {ys : List β} (h : xs.mapM g = .ok ys) :
    ∀ x ∈ xs, ∃ y, g x = .ok y := by
  induction xs generalizing ys with
  | nil => simp
  | cons x xs ih =>
    rw [List.mapM_cons] at h
    obtain ⟨y, hy, h⟩ := bind_eq_ok_iff.1 h
    obtain ⟨ys', hys, -⟩ := bind_eq_ok_iff.1 h
    exact List.forall_mem_cons.2 ⟨⟨y, hy⟩, ih hys⟩

/-- A traversal gives its list back exactly if every step gives its entry back. -/
theorem mapM_eq_ok_self_iff {g : α → Except ε α} {xs : List α} :
    xs.mapM g = .ok xs ↔ ∀ x ∈ xs, g x = .ok x := by
  induction xs with
  | nil => exact iff_of_true rfl nofun
  | cons x xs ih =>
    rw [List.mapM_cons, List.forall_mem_cons, ← ih]
    constructor
    · intro h
      obtain ⟨y, hy, h⟩ := bind_eq_ok_iff.1 h
      obtain ⟨ys, hys, h⟩ := bind_eq_ok_iff.1 h
      cases h
      exact ⟨hy, hys⟩
    · rintro ⟨hx, hxs⟩
      exact bind_eq_ok_iff.2 ⟨x, hx, bind_eq_ok_iff.2 ⟨xs, hxs, rfl⟩⟩

theorem mem_of_filterAuxM {p : α → Except Fault Bool} {xs acc ys : List α}
    (h : xs.filterAuxM p acc = .ok ys) {y : α} (hy : y ∈ ys) :
    (y ∈ xs ∧ p y = .ok true) ∨ y ∈ acc := by
  induction xs generalizing acc with
  | nil =>
    cases h
    exact .inr hy
  | cons x xs ih =>
    obtain ⟨kept, hkept, h⟩ := bind_eq_ok_iff.1 h
    rcases ih h with ⟨hmem, hp⟩ | hmem
    · exact .inl ⟨List.mem_cons_of_mem x hmem, hp⟩
    · cases kept with
      | false => exact .inr hmem
      | true =>
        rcases List.mem_cons.1 hmem with rfl | hmem
        · exact .inl ⟨List.mem_cons_self, hkept⟩
        · exact .inr hmem

/-- What a filter keeps was there before and has passed. -/
theorem mem_of_filterM {p : α → Except Fault Bool} {xs ys : List α} (h : xs.filterM p = .ok ys)
    {y : α} (hy : y ∈ ys) : y ∈ xs ∧ p y = .ok true := by
  obtain ⟨kept, hkept, h⟩ := bind_eq_ok_iff.1 h
  cases h
  rcases mem_of_filterAuxM hkept (List.mem_reverse.1 hy) with hmem | hmem
  · exact hmem
  · cases hmem

theorem filterAuxM_eq_ok_iff {p : α → Except Fault Bool} {xs : List α} (acc : List α) :
    (∃ ys, xs.filterAuxM p acc = .ok ys) ↔ ∀ x ∈ xs, ∃ b, p x = .ok b := by
  induction xs generalizing acc with
  | nil => exact iff_of_true ⟨acc, rfl⟩ nofun
  | cons x xs ih =>
    rw [List.forall_mem_cons]
    constructor
    · rintro ⟨ys, h⟩
      obtain ⟨kept, hkept, h⟩ := bind_eq_ok_iff.1 h
      exact ⟨⟨kept, hkept⟩, (ih _).1 ⟨ys, h⟩⟩
    · rintro ⟨⟨kept, hkept⟩, hxs⟩
      obtain ⟨ys, hys⟩ := (ih _).2 hxs
      exact ⟨ys, bind_eq_ok_iff.2 ⟨kept, hkept, hys⟩⟩

/-- A filter succeeds exactly if every test does. -/
theorem filterM_eq_ok_iff {p : α → Except Fault Bool} {xs : List α} :
    (∃ ys, xs.filterM p = .ok ys) ↔ ∀ x ∈ xs, ∃ b, p x = .ok b := by
  rw [← filterAuxM_eq_ok_iff []]
  constructor
  · rintro ⟨ys, h⟩
    obtain ⟨kept, hkept, -⟩ := bind_eq_ok_iff.1 h
    exact ⟨kept, hkept⟩
  · rintro ⟨kept, hkept⟩
    exact ⟨kept.reverse, bind_eq_ok_iff.2 ⟨kept, hkept, rfl⟩⟩

end Questionnaire.Outcome
