import Questionnaire.Proofs.State.Agreement
import Questionnaire.Proofs.State.Stored
import Questionnaire.Proofs.Store.Scopes
import Questionnaire.State.Application

/-!
# Counting what is stored

An answer is checked in one state, and a patch is stored that may hold more than this state knows.
When everything in the patch counts as given, the state leads to the question that is loaded from
the store in the next turn.

## Main Definitions

* `State.counting` - a state in which everything that a patch stores counts as given
* `State.Knows` - a state holds what a patch stores under a key

## Main Statements

* `State.nextQuestion?_counting` - stored values lead where the state leads that counts the patch
* `State.nextQuestion?_counting_of_knows` - a patch without news leads to the same question
-/

namespace Questionnaire

namespace State

variable {c : Catalog} {s s' : State} {patch : Fields}

/-- The state with several given values. -/
def writeAll (s : State) (entries : Fields) : State :=
  entries.foldl (fun s e => s.write e.1 e.2) s

/-- The state in which everything that a patch stores counts as given. -/
def counting (c : Catalog) (s : State) (patch : Fields) : Except Fault State :=
  refresh c (s.writeAll (Scopes.written patch))

/-- A state holds what a patch stores under a key, and not as a default. -/
def Knows (s : State) (patch : Fields) (key : Json) : Prop :=
  ∀ v, Assoc.valueAt? key (Scopes.written patch) = some v →
    Assoc.valueAt? key s.values = some v ∧ s.statusOf key ≠ .defaulted

theorem values_writeAll (s : State) (entries : Fields) :
    (s.writeAll entries).values = Assoc.overlay s.values entries := by
  induction entries generalizing s with
  | nil => rfl
  | cons e entries ih => exact ih (s.write e.1 e.2)

theorem status_writeAll {entries : Fields} (names : ∀ e ∈ entries, Assoc.IsName e.1) (s : State)
    (key : Json) : Assoc.valueAt? key (s.writeAll entries).status =
      if Assoc.hasKey key entries then some .answered else Assoc.valueAt? key s.status := by
  induction entries generalizing s with
  | nil => rfl
  | cons e entries ih =>
    have hrest := ih (fun d hd => names d (List.mem_cons_of_mem e hd)) (s.write e.1 e.2)
    refine hrest.trans ?_
    rw [write, Assoc.valueAt?_put (names e List.mem_cons_self), Assoc.hasKey, Assoc.hasKey,
      Assoc.valueAt?_cons]
    cases Assoc.valueAt? key entries <;> cases e.1 == key <;> rfl

/-- Only what was not written stays provisional. -/
theorem statusOf_writeAll {entries : Fields} (names : ∀ e ∈ entries, Assoc.IsName e.1) (s : State)
    (key : Json) : (s.writeAll entries).statusOf key = .defaulted ↔
      Assoc.valueAt? key entries = none ∧ s.statusOf key = .defaulted := by
  rw [statusOf_eq_defaulted, statusOf_eq_defaulted, status_writeAll names, Assoc.hasKey]
  cases Assoc.valueAt? key entries <;> simp

/-- Without computed variables bringing a state up to date only looks which modules are enabled. -/
theorem refresh_of_nil (uncomputed : c.computedVars = []) (s : State) :
    refresh c s = (enabledModules s.values c.modules []).map fun enabled =>
      { s with enabled := enabled } := by
  unfold refresh
  rw [uncomputed]
  show (enabledModules s.values c.modules [] >>= _) = _
  cases enabledModules s.values c.modules [] <;> rfl

theorem bind_refresh_congr (uncomputed : c.computedVars = [])
    (values : ∀ key, Assoc.valueAt? key s.values = Assoc.valueAt? key s'.values)
    (defaulted : ∀ key, s.statusOf key = .defaulted ↔ s'.statusOf key = .defaulted)
    (keys : Option (List Json)) (channel : Json) :
    (refresh c s >>= fun t => t.nextQuestion? c keys channel) =
      refresh c s' >>= fun t => t.nextQuestion? c keys channel := by
  have henabled : enabledModules s.values c.modules [] = enabledModules s'.values c.modules [] :=
    enabledModules_congr (fun _ _ name _ => values (.str name)) []
  rw [refresh_of_nil uncomputed, refresh_of_nil uncomputed, henabled]
  cases enabledModules s'.values c.modules [] with
  | error e => rfl
  | ok enabled =>
    have agrees : AgreesOn (fun _ => True) { s with enabled := enabled }
        { s' with enabled := enabled } :=
      ⟨fun key _ => values key, fun key _ => defaulted key, rfl⟩
    exact agrees.nextQuestion? ⟨fun _ _ _ _ => trivial, fun _ _ => trivial⟩ keys channel

/-- Stored values lead to the same question as the state of an answer in which everything that was
stored counts as given. -/
theorem nextQuestion?_counting {stored stored' : Fields} {key v d : Json}
    (regular : Assoc.Regular c.defaults) (uncomputed : c.computedVars = [])
    (hpatch : Assoc.Regular patch) (name : Assoc.IsName key)
    (values : ∀ k, Assoc.valueAt? k s.values =
      Assoc.valueAt? k (Assoc.put key v (completed c stored)))
    (status : ∀ k, Assoc.valueAt? k s.status =
      Assoc.valueAt? k (Assoc.put key .answered (completedStatus c stored)))
    (hkey : Assoc.hasKey key (Scopes.written patch) = true)
    (hread : ∀ k, Assoc.valueAt? k stored' =
      (Assoc.valueAt? k (Scopes.written patch)).or (Assoc.valueAt? k stored))
    (keys : Option (List Json)) (channel : Json) :
    (ofFields c stored' (some d) >>= fun t => t.nextQuestion? c keys channel) =
      s.counting c patch >>= fun t => t.nextQuestion? c keys channel := by
  have regularWritten : Assoc.Regular (Scopes.written patch) := hpatch.filter _
  have hnew (k x : Json) (h : Assoc.valueAt? k (Scopes.written patch) = some x) : x ≠ .null :=
    Scopes.ne_null_of_written h
  -- the answer is written itself, so a field that is not written is another one
  have hother (k : Json) (hnone : Assoc.valueAt? k (Scopes.written patch) = none) :
      (key == k) = false := by
    refine Bool.eq_false_iff.2 fun hk => ?_
    rw [name.symm] at hk
    rw [Assoc.hasKey, ← Assoc.valueAt?_congr name hk, hnone] at hkey
    cases hkey
  rw [ofFields_eq]
  show (refresh c _ >>= _) = _
  unfold counting
  refine bind_refresh_congr uncomputed (fun k => ?values) (fun k => ?defaulted) keys channel
  case values =>
    rw [values_writeAll, regularWritten.valueAt?_overlay, values, Assoc.valueAt?_put name]
    refine (valueAt?_completed_of_or regular (hnew k) (hread k)).trans ?_
    cases hfound : Assoc.valueAt? k (Scopes.written patch) with
    | some x => rfl
    | none => rw [hother k hfound, if_neg Bool.false_ne_true]
  case defaulted =>
    rw [statusOf_writeAll regularWritten.isName, statusOf_eq_defaulted, statusOf_eq_defaulted,
      status, Assoc.valueAt?_put name]
    refine (defaulted_of_or regular (hnew k) (hread k)).trans (and_congr_right fun hfound => ?_)
    rw [hother k hfound, if_neg Bool.false_ne_true]

/-- When a state holds what a patch stores, as far as the catalog looks at it, counting the patch
does not change where the state leads. -/
theorem nextQuestion?_counting_of_knows (uncomputed : c.computedVars = [])
    (hpatch : Assoc.Regular patch) (current : enabledModules s.values c.modules [] = .ok s.enabled)
    (looks : c.LooksOnlyAt (s.Knows patch)) (keys : Option (List Json)) (channel : Json) :
    (s.counting c patch >>= fun t => t.nextQuestion? c keys channel) =
      s.nextQuestion? c keys channel := by
  have regularWritten : Assoc.Regular (Scopes.written patch) := hpatch.filter _
  have hvalues (k : Json) (hknows : s.Knows patch k) :
      Assoc.valueAt? k (s.writeAll (Scopes.written patch)).values = Assoc.valueAt? k s.values := by
    rw [values_writeAll, regularWritten.valueAt?_overlay]
    cases hfound : Assoc.valueAt? k (Scopes.written patch) with
    | some x => exact (hknows x hfound).1.symm
    | none => rfl
  have henabled : enabledModules (s.writeAll (Scopes.written patch)).values c.modules [] =
      .ok s.enabled := by
    rw [← current]
    exact enabledModules_congr (fun m hm n hn => hvalues _ (looks.module_ hm n hn)) []
  unfold counting
  rw [refresh_of_nil uncomputed, henabled]
  have agrees : AgreesOn (s.Knows patch)
      { s.writeAll (Scopes.written patch) with enabled := s.enabled } s := by
    refine ⟨hvalues, fun k hknows => ?_, rfl⟩
    refine (statusOf_writeAll regularWritten.isName s k).trans ⟨And.right, fun hdefaulted => ?_⟩
    -- a field that is provisional here is not written
    refine ⟨Option.eq_none_iff_forall_ne_some.2 fun x hfound => ?_, hdefaulted⟩
    exact (hknows x hfound).2 hdefaulted
  exact agrees.nextQuestion? looks keys channel

end State

end Questionnaire
