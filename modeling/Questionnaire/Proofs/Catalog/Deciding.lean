import Questionnaire.Proofs.Catalog.References

/-!
# Steps that decide by their input

A step of loading gets through or fails as its input alone tells, whatever was found before it.  So
what a run of steps needs is what its steps need, each of them given what the steps before it gave.

## Main Definitions

* `Fault.isRefusal` - a failure that refuses a catalog
* `Outcome.Decides` - a computation succeeds or fails as a truth value tells
* `Catalog.Build.Decides` - so does a step of loading, from all findings

## Main Statements

* `Outcome.Decides.bind`, `Catalog.Build.Decides.bind` - what two steps need
-/

namespace Questionnaire

namespace Json

/-- An object. -/
def isObject : Json → Bool
  | .obj _ => true
  | _ => false

/-- A value that can be walked over. -/
def isCollection : Json → Bool
  | .arr _ => true
  | .obj _ => true
  | .str _ => true
  | _ => false

/-- The absent value, or one that can be walked over. -/
def isNullOrCollection : Json → Bool
  | .null => true
  | v => v.isCollection

/-- What walking over a value gives. -/
def walked : Json → List Json
  | .arr xs => xs
  | .obj ms => ms.map fun m => .str m.1
  | .str s => s.toList.map fun c => .str (String.ofList [c])
  | _ => []

/-- The member of an object under a name, absent if there is none. -/
def memberAt (v : Json) (name : String) : Json := (v.member? name).getD .null

/-- A value is not filled, or it has a property. -/
def absentOr (p : Json → Bool) (v : Json) : Bool := !v.isFilled || p v

/-- A key and a value. -/
def isPair : Json → Bool
  | .arr [k, _] => k.isKey
  | .obj [_, _] => true
  | .str s => s.toList.length == 2
  | _ => false

/-- Values under keys. -/
def holdsPairs : Json → Bool
  | .obj _ => true
  | .arr xs => xs.all isPair
  | _ => false

/-- A value that denotes a number where one is required. -/
def isNumeric (v : Json) : Bool :=
  match v.asFloat with
  | .ok _ => true
  | .error _ => false

end Json

/-- A failure that refuses a catalog with its defects. -/
def Fault.isRefusal : Fault → Bool
  | .refused _ => true
  | _ => false

namespace Outcome

variable {α β : Type} {b c : Bool} {P : α → Prop} {Q : β → Prop}

/-- A computation succeeds, with a result that has a property, or fails, as a truth value tells.
Its failure is not a refusal. -/
def Decides (b : Bool) (P : α → Prop) (x : Except Fault α) : Prop :=
  if b then ∃ a, x = .ok a ∧ P a else ∃ e, x = .error e ∧ e.isRefusal = false

theorem Decides.ok {a : α} (h : P a) : Decides true P (.ok a) := ⟨a, rfl, h⟩

theorem Decides.error {e : Fault} (h : e.isRefusal = false) :
    Decides false P (.error e : Except Fault α) := ⟨e, rfl, h⟩

theorem Decides.bind {x : Except Fault α} {k : α → Except Fault β} (hx : Decides b P x)
    (hk : ∀ a, P a → Decides c Q (k a)) : Decides (b && c) Q (x >>= k) := by
  cases b with
  | false =>
    obtain ⟨e, rfl, he⟩ := hx
    exact ⟨e, rfl, he⟩
  | true =>
    obtain ⟨a, rfl, ha⟩ := hx
    exact hk a ha

theorem Decides.imp {P' : α → Prop} {x : Except Fault α} (hx : Decides b P x)
    (h : ∀ a, P a → P' a) : Decides b P' x := by
  cases b with
  | false => exact hx
  | true =>
    obtain ⟨a, rfl, ha⟩ := hx
    exact ⟨a, rfl, h a ha⟩

/-- A traversal succeeds when all of its steps do. -/
theorem decides_mapM {g : α → Except Fault β} {p : α → Bool} {f : α → β} {xs : List α}
    (h : ∀ x ∈ xs, Decides (p x) (· = f x) (g x)) :
    Decides (xs.all p) (· = xs.map f) (xs.mapM g) := by
  induction xs with
  | nil => exact .ok rfl
  | cons x xs ih =>
    rw [List.mapM_cons, List.all_cons]
    refine (h x List.mem_cons_self).bind fun y hy => ?_
    rw [← Bool.and_true (xs.all p)]
    refine (ih fun z hz => h z (List.mem_cons_of_mem x hz)).bind fun ys hys => .ok ?_
    rw [hy, hys, List.map_cons]

end Outcome

open Outcome (Decides)

namespace Json

theorem decides_asKey (v : Json) : Decides v.isKey (· = v) v.asKey := by
  unfold asKey
  cases v.isKey
  · exact .error rfl
  · exact .ok rfl

theorem decides_itemsOver (v : Json) : Decides v.isCollection (· = v.walked) v.itemsOver := by
  cases v with
  | arr _ | obj _ | str _ => exact .ok rfl
  | _ => exact .error rfl

theorem decides_pairAt (index : Nat) (v : Json) :
    Decides v.isPair (fun _ => True) (pairAt index v) := by
  cases v with
  | arr xs =>
    rcases xs with _ | ⟨k, _ | ⟨w, _ | ⟨_, _⟩⟩⟩
    case cons.cons.nil =>
      show Decides k.isKey _ (k.asKey >>= fun key => pure (key, w))
      rw [← Bool.and_true k.isKey]
      exact (decides_asKey k).bind fun _ _ => .ok trivial
    all_goals exact .error rfl
  | obj ms =>
    rcases ms with _ | ⟨_, _ | ⟨_, _ | ⟨_, _⟩⟩⟩
    case cons.cons.nil => exact .ok trivial
    all_goals exact .error rfl
  | str s =>
    simp only [isPair, pairAt]
    rcases s.toList with _ | ⟨_, _ | ⟨_, _ | ⟨_, _⟩⟩⟩
    case cons.cons.nil => exact .ok trivial
    all_goals exact .error rfl
  | _ => exact .error rfl

theorem decides_pairsFrom (index : Nat) (xs : List Json) :
    Decides (xs.all isPair) (fun _ => True) (pairsFrom index xs) := by
  induction xs generalizing index with
  | nil => exact .ok trivial
  | cons x xs ih =>
    rw [List.all_cons, ← Bool.and_true (xs.all isPair)]
    exact (decides_pairAt index x).bind fun _ _ => (ih _).bind fun _ _ => .ok trivial

/-- A filled value holds named values, or it does not. -/
theorem decides_entries {v : Json} (filled : v.isFilled = true) :
    Outcome.Decides v.holdsPairs (fun _ => True) v.entries := by
  cases v with
  | obj ms => exact .ok trivial
  | arr xs => exact decides_pairsFrom 0 xs
  | str s =>
    have hne : s ≠ "" := by simpa [isFilled] using filled
    rw [entries, if_neg hne]
    exact .error rfl
  | _ => exact .error rfl

/-- A value that denotes no number fails to be one. -/
theorem isRefusal_of_asFloat {v : Json} {e : Fault} (h : v.asFloat = .error e) :
    e.isRefusal = false := by
  unfold asFloat at h
  split at h
  case h_1 | h_3 => cases h
  case h_2 | h_4 =>
    split at h
    · cases h
    · cases h
      rfl
  case h_5 =>
    cases h
    rfl

/-- A value that must not be filled. -/
theorem decides_unless {α : Type} {P : α → Prop} (v : Json) {e : Fault} {a : α} (h : P a)
    (he : e.isRefusal = false) :
    Decides (!v.isFilled || false) P (if v.isFilled then .error e else .ok a) := by
  cases v.isFilled
  · exact .ok h
  · exact .error he

end Json

namespace Path

/-- A text that is no path has a position with too many digits. -/
theorem isRefusal_of_parseFrom {fuel : Nat} {cs : List Char} {e : Fault}
    (h : parseFrom fuel cs = .error e) : e.isRefusal = false := by
  induction fuel, cs using parseFrom.induct with
  | case1 | case2 => cases h
  | case3 fuel c rest hdelimiter digits rest' hposition ih =>
    rw [parseFrom, if_pos hdelimiter, hposition] at h
    rcases Outcome.bind_eq_error_iff.1 h with h | ⟨n, -, h⟩
    · unfold positionOf at h
      split at h
      · cases h
        rfl
      · cases h
    · rcases Outcome.bind_eq_error_iff.1 h with h | ⟨_, -, h⟩
      · exact ih h
      · cases h
  | case4 fuel c rest hdelimiter hposition ih =>
    rw [parseFrom, if_pos hdelimiter, hposition] at h
    exact ih h
  | case5 fuel c rest hdelimiter ih =>
    rw [parseFrom, if_neg hdelimiter] at h
    rcases Outcome.bind_eq_error_iff.1 h with h | ⟨_, -, h⟩
    · exact ih h
    · cases h

theorem isRefusal_of_parse {path : String} {e : Fault} (h : parse path = .error e) :
    e.isRefusal = false := isRefusal_of_parseFrom h

end Path

namespace Catalog

namespace Build

variable {α β : Type} {b c : Bool} {P : α → Prop} {Q : β → Prop}

/-- A step of loading gets through, with a result that has a property, or fails, as a truth value
tells. -/
def Decides (b : Bool) (P : α → Prop) (x : Build α) : Prop :=
  ∀ s, Outcome.Decides b (fun r => P r.1) (x.run s)

theorem Decides.pure {a : α} (h : P a) : Decides true P (Pure.pure a : Build α) :=
  fun s => ⟨(a, s), rfl, h⟩

theorem Decides.lift {x : Except Fault α} (h : Outcome.Decides b P x) :
    Decides b P (liftM x : Build α) := by
  intro s
  cases b with
  | false =>
    obtain ⟨e, rfl, he⟩ := h
    exact ⟨e, rfl, he⟩
  | true =>
    obtain ⟨a, rfl, ha⟩ := h
    exact ⟨(a, s), rfl, ha⟩

theorem Decides.bind {x : Build α} {k : α → Build β} (hx : Decides b P x)
    (hk : ∀ a, P a → Decides c Q (k a)) : Decides (b && c) Q (x >>= k) := by
  intro s
  rw [StateT.run_bind]
  exact (hx s).bind fun r hr => hk r.1 hr r.2

theorem Decides.reject (p : Problem) {P : Option α → Prop} (h : P none) :
    Decides true P (Build.reject p) :=
  fun s => ⟨(none, { s with problems := s.problems ++ [p] }), rfl, h⟩

theorem Decides.report (p : Problem) : Decides true (fun _ => True) (Build.report p) :=
  fun s => ⟨((), { s with problems := s.problems ++ [p] }), rfl, trivial⟩

theorem Decides.warn (w : Warning) : Decides true (fun _ => True) (Build.warn w) :=
  fun s => ⟨((), { s with warnings := s.warnings ++ [w] }), rfl, trivial⟩

theorem Decides.imp {P' : α → Prop} {x : Build α} (hx : Decides b P x) (h : ∀ a, P a → P' a) :
    Decides b P' x :=
  fun s => (hx s).imp fun r hr => h r.1 hr

/-- What holds of every result may be added to what a step gives. -/
theorem Decides.and_of_run {P' : α → Prop} {x : Build α} (hx : Decides b P x)
    (h : ∀ s a s', x.run s = .ok (a, s') → P' a) : Decides b (fun a => P a ∧ P' a) x := by
  intro s
  cases b with
  | false => exact hx s
  | true =>
    obtain ⟨r, hr, ha⟩ := hx s
    exact ⟨r, hr, ha, h s r.1 r.2 hr⟩

theorem Decides.of_eq {x : Build α} (hx : Decides b P x) (h : b = c) : Decides c P x := h ▸ hx

theorem Decides.forM {g : α → Build PUnit} {p : α → Bool} {xs : List α}
    (h : ∀ x ∈ xs, Decides (p x) (fun _ => True) (g x)) :
    Decides (xs.all p) (fun _ => True) (xs.forM g) := by
  induction xs with
  | nil => exact .pure trivial
  | cons x xs ih =>
    rw [List.all_cons]
    exact (h x List.mem_cons_self).bind fun _ _ => ih fun y hy => h y (List.mem_cons_of_mem x hy)

end Build

end Catalog

end Questionnaire
