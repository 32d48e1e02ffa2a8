import Questionnaire.Fault

/-!
# Looking up names

Keys are compared by an equality that need not be the one of the logic: a truth value equals the
number that it counts as, and so does an integer the floating point number of its value.  Scalars
behave under it as names do, so what a write changes can be said key by key.

## Main Definitions

* `Assoc.IsName` - a key that equal keys may stand for
* `Assoc.mapValues` - every value replaced, under the same keys

## Main Statements

* `Assoc.valueAt?_put`, `Assoc.valueAt?_remove`, `Assoc.valueAt?_overlay` - lookups after a write
* `Json.isName_of_isKey` - scalars are names
-/

namespace Questionnaire

namespace Assoc

variable {κ α β : Type} [BEq κ] {k k' a : κ}

/-- A key is a name when it equals itself, equality with it goes both ways, and whatever equals it
may stand for it on both sides of an equality. -/
structure IsName (k : κ) : Prop where
  /-- It equals itself. -/
  self : (k == k) = true
  /-- Equality with it goes both ways. -/
  symm : ∀ a : κ, (k == a) = (a == k)
  /-- What equals it stands for it on the left. -/
  left : ∀ {a : κ}, (a == k) = true → ∀ b, (a == b) = (k == b)
  /-- What equals it stands for it on the right. -/
  right : ∀ {a : κ}, (a == k) = true → ∀ b, (b == a) = (b == k)

theorem isName_of_lawful [LawfulBEq κ] (k : κ) : IsName k where
  self := beq_self_eq_true k
  symm a := Bool.beq_comm
  left h b := by rw [eq_of_beq h]
  right h b := by rw [eq_of_beq h]

/-- Two keys that equal the same key equal each other. -/
theorem IsName.beq_of_beq (name : IsName k') (h : (k' == k) = true) (ha : (a == k) = true) :
    (a == k') = true := by
  rw [name.symm k] at h
  rw [← name.right h a]
  exact ha

theorem valueAt?_congr (name : IsName k) (h : (a == k) = true) (m : Assoc κ α) :
    valueAt? a m = valueAt? k m := by
  induction m with
  | nil => rfl
  | cons e m ih => rw [valueAt?_cons, valueAt?_cons, name.right h, ih]

theorem valueAt?_put (name : IsName k') (v : α) (m : Assoc κ α) (k : κ) :
    valueAt? k (put k' v m) = if k' == k then some v else valueAt? k m := by
  induction m with
  | nil => rfl
  | cons e m ih =>
    by_cases he : (e.1 == k') = true
    · rw [put, if_pos he, valueAt?_cons, valueAt?_cons, name.left he k]
      split <;> rfl
    · rw [put, if_neg he, valueAt?_cons, valueAt?_cons, ih]
      by_cases hk : (k' == k) = true
      · have hek : (e.1 == k) ≠ true := fun h => he (name.beq_of_beq hk h)
        rw [if_neg hek, if_pos hk, if_pos hk]
      · rw [if_neg hk, if_neg hk]

theorem valueAt?_remove (name : IsName k') (m : Assoc κ α) (k : κ) :
    valueAt? k (remove k' m) = if k' == k then none else valueAt? k m := by
  induction m with
  | nil => simp [remove]
  | cons e m ih =>
    unfold remove at ih ⊢
    by_cases he : (e.1 == k') = true
    · rw [List.filter_cons_of_neg (by simp [he]), ih, valueAt?_cons, name.left he k]
      split <;> rfl
    · rw [List.filter_cons_of_pos (by simp [he]), valueAt?_cons, valueAt?_cons, ih]
      by_cases hk : (k' == k) = true
      · have hek : (e.1 == k) ≠ true := fun h => he (name.beq_of_beq hk h)
        rw [if_neg hek, if_pos hk, if_pos hk]
      · rw [if_neg hk, if_neg hk]

theorem valueAt?_append (m n : Assoc κ α) (k : κ) :
    valueAt? k (m ++ n) = (valueAt? k m).or (valueAt? k n) := by
  induction m with
  | nil => rfl
  | cons e m ih =>
    rw [List.cons_append, valueAt?_cons, valueAt?_cons, ih]
    split <;> rfl

/-- A lookup after several writes finds the last of them that is under the key. -/
theorem valueAt?_overlay {patch : Assoc κ α} (names : ∀ e ∈ patch, IsName e.1) (base : Assoc κ α)
    (k : κ) :
    valueAt? k (overlay base patch) = (valueAt? k patch.reverse).or (valueAt? k base) := by
  induction patch generalizing base with
  | nil => rfl
  | cons e patch ih =>
    have hrest := ih (fun d hd => names d (List.mem_cons_of_mem e hd)) (put e.1 e.2 base)
    rw [valueAt?_put (names e List.mem_cons_self)] at hrest
    rw [overlay, List.foldl_cons, ← overlay, hrest, List.reverse_cons, valueAt?_append,
      valueAt?_cons]
    cases valueAt? k patch.reverse with
    | some v => rfl
    | none =>
      rw [Option.none_or, Option.none_or]
      split <;> rfl

theorem mem_of_valueAt? {v : α} {m : Assoc κ α} (h : valueAt? k m = some v) :
    ∃ e ∈ m, (e.1 == k) = true ∧ e.2 = v := by
  induction m with
  | nil => cases h
  | cons e m ih =>
    rw [valueAt?_cons] at h
    split at h
    · rename_i he
      exact ⟨e, List.mem_cons_self, he, Option.some.inj h⟩
    · obtain ⟨d, hd, found⟩ := ih h
      exact ⟨d, List.mem_cons_of_mem e hd, found⟩

/-- What is found after a write was written or found before, whatever the keys are. -/
theorem valueAt?_put_or {v w : α} {m : Assoc κ α} (h : valueAt? k (put k' v m) = some w) :
    w = v ∨ valueAt? k m = some w := by
  induction m with
  | nil =>
    rw [put, valueAt?_cons] at h
    split at h
    · exact .inl (Option.some.inj h).symm
    · cases h
  | cons e m ih =>
    rw [valueAt?_cons]
    unfold put at h
    split at h
    all_goals
      rw [valueAt?_cons] at h
      split at h
    · exact .inl (Option.some.inj h).symm
    · rename_i hk
      rw [if_neg hk]
      exact .inr h
    · rename_i hk
      rw [if_pos hk]
      exact .inr h
    · rename_i hk
      rw [if_neg hk]
      exact ih h

theorem mem_put_or {v : α} {m : Assoc κ α} {e : κ × α} (he : e ∈ put k v m) :
    e ∈ m ∨ e.2 = v := by
  induction m with
  | nil =>
    rw [List.mem_singleton.1 he]
    exact .inr rfl
  | cons d m ih =>
    unfold put at he
    split at he
    · rcases List.mem_cons.1 he with rfl | he
      · exact .inr rfl
      · exact .inl (List.mem_cons_of_mem d he)
    · rcases List.mem_cons.1 he with rfl | he
      · exact .inl List.mem_cons_self
      · rcases ih he with he | he
        · exact .inl (List.mem_cons_of_mem d he)
        · exact .inr he

theorem mem_overlay_or {base entries : Assoc κ α} {e : κ × α}
    (he : e ∈ overlay base entries) : e ∈ base ∨ ∃ d ∈ entries, e.2 = d.2 := by
  induction entries generalizing base with
  | nil => exact .inl he
  | cons d entries ih =>
    rcases ih he with he | ⟨d', hd', hvalue⟩
    · rcases mem_put_or he with he | hvalue
      · exact .inl he
      · exact .inr ⟨d, List.mem_cons_self, hvalue⟩
    · exact .inr ⟨d', List.mem_cons_of_mem d hd', hvalue⟩

theorem mem_overlay_value {base patch : Assoc κ α} {P : α → Prop}
    (hbase : ∀ e ∈ base, P e.2) (hpatch : ∀ e ∈ patch, P e.2) :
    ∀ e ∈ overlay base patch, P e.2 := by
  intro e he
  rcases mem_overlay_or he with he | ⟨d, hd, hvalue⟩
  · exact hbase e he
  · rw [hvalue]
    exact hpatch d hd

theorem valueAt?_eq_none {m : Assoc κ α} (h : ∀ e ∈ m, (e.1 == k) = false) :
    valueAt? k m = none := by
  cases hk : valueAt? k m with
  | none => rfl
  | some v =>
    obtain ⟨e, he, hek, -⟩ := mem_of_valueAt? hk
    rw [h e he] at hek
    cases hek

/-- Only the keys that are written are affected by a write. -/
theorem valueAt?_overlay_of_forall_ne {patch : Assoc κ α} (names : ∀ e ∈ patch, IsName e.1)
    (base : Assoc κ α) {k : κ} (h : ∀ e ∈ patch, (e.1 == k) = false) :
    valueAt? k (overlay base patch) = valueAt? k base := by
  rw [valueAt?_overlay names, valueAt?_eq_none fun e he => h e (List.mem_reverse.1 he),
    Option.none_or]

/-- The entries with other values. -/
def mapValues (f : α → β) (m : Assoc κ α) : Assoc κ β := m.map fun e => (e.1, f e.2)

theorem valueAt?_mapValues (f : α → β) (k : κ) (m : Assoc κ α) :
    valueAt? k (mapValues f m) = (valueAt? k m).map f := by
  induction m with
  | nil => rfl
  | cons e m ih =>
    unfold mapValues at ih ⊢
    rw [List.map_cons, valueAt?_cons, valueAt?_cons, ih]
    split <;> rfl

/-- A filter of keys that does not tell equal keys apart filters what is found. -/
theorem valueAt?_filter_key {p : κ → Bool} {m : Assoc κ α}
    (h : ∀ e ∈ m, (e.1 == k) = true → p e.1 = p k) :
    valueAt? k (m.filter fun e => p e.1) = if p k then valueAt? k m else none := by
  induction m with
  | nil => rw [List.filter_nil, valueAt?_nil, ite_self]
  | cons e m ih =>
    obtain ⟨he, hrest⟩ := List.forall_mem_cons.1 h
    have ih := ih hrest
    rw [List.filter_cons, valueAt?_cons]
    by_cases hek : (e.1 == k) = true
    · rw [if_pos hek, he hek]
      split
      · rw [valueAt?_cons, if_pos hek]
      · next hp => rw [ih, if_neg hp]
    · rw [if_neg hek]
      split
      · rw [valueAt?_cons, if_neg hek, ih]
      · exact ih

end Assoc

namespace Quantity

/-- Quantities are equal when they are the same and a number. -/
theorem eq_iff (x y : Quantity) : x.eq y = true ↔ x = y ∧ x ≠ .nan := by
  cases x with
  | nan => cases y <;> simp [eq, compare?]
  | infinity s =>
    cases y with
    | nan => simp [eq, compare?]
    | infinity t => by_cases h : s = t <;> cases s <;> simp [eq, compare?, h]
    | exact y => cases s <;> simp [eq, compare?]
  | exact x =>
    cases y with
    | nan => simp [eq, compare?]
    | infinity t => cases t <;> simp [eq, compare?]
    | exact y =>
      by_cases hlt : x < y
      · have hne : x ≠ y := fun h => Rat.lt_irrefl (h ▸ hlt)
        simp [eq, compare?, hlt, hne]
      · simp [eq, compare?, hlt]

end Quantity

namespace Json

/-- Two values are equal numbers when they have the same quantity. -/
theorem sameNumber_iff (v w : Json) :
    sameNumber v w = true ↔ ∃ x, v.quantity? = some x ∧ w.quantity? = some x := by
  unfold sameNumber
  split
  · simp_all
  · rename_i x y hnan hv hw
    rw [Quantity.eq_iff, hv, hw]
    constructor
    · rintro ⟨rfl, -⟩
      exact ⟨x, rfl, rfl⟩
    · rintro ⟨z, hz, hz'⟩
      cases hz
      cases hz'
      exact ⟨rfl, fun h => hnan h h⟩
  · rename_i hnone
    simp only [Bool.false_eq_true, false_iff, not_exists, not_and]
    intro x hv hw
    exact hnone x x hv hw

/-- What equals a number under this equality equals the same values as it does. -/
theorem sameNumber_congr {v w : Json} (h : sameNumber v w = true) (u : Json) :
    sameNumber v u = sameNumber w u := by
  obtain ⟨x, hv, hw⟩ := (sameNumber_iff v w).1 h
  rw [Bool.eq_iff_iff, sameNumber_iff, sameNumber_iff, hv, hw]

theorem sameNumber_comm (v w : Json) : sameNumber v w = sameNumber w v := by
  rw [Bool.eq_iff_iff, sameNumber_iff, sameNumber_iff]
  simp only [and_comm]

theorem beq_null (v : Json) : (v == .null) = true ↔ v = .null := by
  cases v <;> simp [BEq.beq, alike, sameNumber, quantity?]

theorem beq_str (v : Json) (s : String) : (v == .str s) = true ↔ v = .str s := by
  cases v <;> simp [BEq.beq, alike, sameNumber, quantity?]

instance decidableEqStr (v : Json) (s : String) : Decidable (v = .str s) :=
  decidable_of_iff ((v == .str s) = true) (beq_str v s)

instance decidableEqSingle (vs : List Json) (s : String) : Decidable (vs = [.str s]) :=
  match vs with
  | [v] => decidable_of_iff (v = .str s) (by simp)
  | [] | _ :: _ :: _ => isFalse (by simp)

instance decidableEqInt (v : Json) (n : Int) : Decidable (v = .int n) :=
  match v with
  | .int m => decidable_of_iff (m = n) (by simp)
  | .null | .bool _ | .float _ | .str _ | .arr _ | .obj _ => isFalse (by simp)

/-- A value that counts as a number. -/
def isNumeral (v : Json) : Bool := v.quantity?.isSome

theorem beq_of_isNumeral_left {v : Json} (h : v.isNumeral = true) (w : Json) :
    (v == w) = sameNumber v w := by
  cases v <;> first | rfl | cases h

theorem beq_of_isNumeral_right {w : Json} (h : w.isNumeral = true) (v : Json) :
    (v == w) = sameNumber v w := by
  cases v <;> cases w <;> first | rfl | cases h

theorem isNumeral_of_sameNumber {v w : Json} (h : sameNumber v w = true) :
    v.isNumeral = true := by
  obtain ⟨x, hv, -⟩ := (sameNumber_iff v w).1 h
  rw [isNumeral, hv, Option.isSome_some]

theorem isName_of_isNumeral {v : Json} (h : v.isNumeral = true) : Assoc.IsName v where
  self := by
    obtain ⟨x, hx⟩ := Option.isSome_iff_exists.1 h
    rw [beq_of_isNumeral_left h]
    exact (sameNumber_iff v v).2 ⟨x, hx, hx⟩
  symm a := by rw [beq_of_isNumeral_left h, beq_of_isNumeral_right h, sameNumber_comm]
  left {a} ha b := by
    rw [beq_of_isNumeral_right h] at ha
    rw [beq_of_isNumeral_left (isNumeral_of_sameNumber ha), beq_of_isNumeral_left h,
      sameNumber_congr ha]
  right {a} ha b := by
    rw [beq_of_isNumeral_right h] at ha
    rw [beq_of_isNumeral_right (isNumeral_of_sameNumber ha), beq_of_isNumeral_right h,
      sameNumber_comm b a, sameNumber_comm b v, sameNumber_congr ha]

theorem isName_str (s : String) : Assoc.IsName (Json.str s) where
  self := (beq_str _ s).2 rfl
  symm a := by
    rw [Bool.eq_iff_iff, beq_str]
    cases a <;> simp [BEq.beq, alike, eq_comm]
  left ha b := by rw [(beq_str _ s).1 ha]
  right ha b := by rw [(beq_str _ s).1 ha]

theorem eq_of_str_beq {s : String} {v : Json} (h : (Json.str s == v) = true) : v = .str s := by
  rw [(isName_str s).symm] at h
  exact (beq_str v s).1 h

theorem isName_null : Assoc.IsName Json.null where
  self := rfl
  symm a := by
    rw [Bool.eq_iff_iff, beq_null]
    cases a <;> simp [BEq.beq, alike]
  left ha b := by rw [(beq_null _).1 ha]
  right ha b := by rw [(beq_null _).1 ha]

/-- Scalars are names. -/
theorem isName_of_isKey {v : Json} (h : v.isKey = true) : Assoc.IsName v := by
  cases v with
  | null => exact isName_null
  | str s => exact isName_str s
  | bool b => exact isName_of_isNumeral rfl
  | int n => exact isName_of_isNumeral rfl
  | float x => exact isName_of_isNumeral rfl
  | arr xs => cases h
  | obj ms => cases h

theorem asKey_eq_ok_iff (v k : Json) : v.asKey = .ok k ↔ v.isKey = true ∧ v = k := by
  unfold asKey
  split <;> simp_all

@[simp] theorem asKey_str (s : String) : (Json.str s).asKey = .ok (.str s) := rfl

end Json

/-- The members of an object stand under their names. -/
theorem Fields.valueAt?_ofObject (name : String) (o : Object) :
    Assoc.valueAt? (.str name) (Fields.ofObject o) = Assoc.valueAt? name o := by
  induction o with
  | nil => rfl
  | cons m o ih =>
    unfold Fields.ofObject at ih ⊢
    rw [List.map_cons, Assoc.valueAt?_cons, Assoc.valueAt?_cons, Json.str_beq, ih]

end Questionnaire
