import Questionnaire.Proofs.Json.Path

/-!
# The order of writes

A value at a path is overwritten by a later write at the same path.  Writes at paths that part from
each other may change places: a list comes out the same, and an object with its members in another
order.

## Main Definitions

* `Json.Reordered` - values that differ only in the order of members

## Main Statements

* `Json.Reordered.follow` - at every path they hold the same, up to order
* `Path.write_write` - the second of two writes at a path stands
* `Path.reordered_write` - a write leaves the same up to order what was so
* `Path.reordered_write_comm` - writes at paths that part may change places
* `Path.reads_after_set` - what is read after a write into an object, and after two of them
-/

namespace Questionnaire

theorem Assoc.put_put {α : Type} (k : String) (v w : α) (m : Assoc String α) :
    put k v (put k w m) = put k v m := by
  induction m with
  | nil => simp [put]
  | cons e m ih =>
    by_cases he : (e.1 == k) = true
    · rw [put, if_pos he, put, if_pos he, put, if_pos he]
    · rw [put, if_neg he, put, if_neg he, put, if_neg he, ih]

namespace Json

/-- Two values are the same up to the order of the members of objects, at any depth. -/
inductive Reordered : Json → Json → Prop where
  /-- They are the same. -/
  | refl (v : Json) : Reordered v v
  /-- Lists of the same length hold such values at the same positions. -/
  | arr {xs ys : List Json} (length : xs.length = ys.length)
      (items : ∀ i : Nat, Reordered (xs[i]?.getD .null) (ys[i]?.getD .null)) :
      Reordered (.arr xs) (.arr ys)
  /-- Objects with the same names hold such values under each name. -/
  | obj {ms ns : List (String × Json)} (names : (Assoc.keyList ms).Perm (Assoc.keyList ns))
      (members : ∀ name, Reordered ((Assoc.valueAt? name ms).getD .null)
        ((Assoc.valueAt? name ns).getD .null)) : Reordered (.obj ms) (.obj ns)

namespace Reordered

variable {u v w : Json}

theorem symm (h : Reordered v w) : Reordered w v := by
  induction h with
  | refl v => exact .refl v
  | arr length _ ih => exact .arr length.symm ih
  | obj names _ ih => exact .obj names.symm ih

theorem trans (h : Reordered u v) (h' : Reordered v w) : Reordered u w := by
  induction h generalizing w with
  | refl u => exact h'
  | arr length items ih =>
    cases h' with
    | refl v => exact .arr length items
    | arr length' items' => exact .arr (length.trans length') fun i => ih i (items' i)
  | obj names members ih =>
    cases h' with
    | refl v => exact .obj names members
    | obj names' members' => exact .obj (names.trans names') fun name => ih name (members' name)

open Questionnaire.Path (itemsOf membersOf step_key step_index)

/-- A segment leads to the same up to order. -/
theorem step (h : Reordered v w) (s : Path.Segment) :
    Reordered (Path.step v s) (Path.step w s) := by
  cases h with
  | refl v => exact .refl _
  | arr length items =>
    cases s with
    | key name => exact .refl _
    | index n => exact items n
  | obj names members =>
    cases s with
    | key name =>
      rw [step_key, step_key]
      exact members name
    | index n => exact .refl _

/-- At every path the same stands up to order. -/
theorem follow (h : Reordered v w) (segments : List Path.Segment) :
    Reordered (Path.follow v segments) (Path.follow w segments) := by
  induction segments generalizing v w with
  | nil => exact h
  | cons s rest ih => exact ih (h.step s)

/-- A scalar is the same only as itself. -/
theorem eq_of_isKey (h : Reordered v w) (isKey : v.isKey = true) : w = v := by
  cases h with
  | refl v => rfl
  | arr length items => cases isKey
  | obj names members => cases isKey

theorem names (h : Reordered v w) :
    (Assoc.keyList (membersOf v)).Perm (Assoc.keyList (membersOf w)) := by
  cases h with
  | refl v => exact .refl _
  | arr length items => exact .refl _
  | obj names members => exact names

theorem length (h : Reordered v w) : (itemsOf v).length = (itemsOf w).length := by
  cases h with
  | refl v => rfl
  | arr length items => exact length
  | obj names members => rfl

/-- Objects with the same names are the same up to order when each name leads to the same. -/
theorem of_step_key (hv : v = .obj (membersOf v)) (hw : w = .obj (membersOf w))
    (names : (Assoc.keyList (membersOf v)).Perm (Assoc.keyList (membersOf w)))
    (h : ∀ name, Reordered (Path.step v (.key name)) (Path.step w (.key name))) :
    Reordered v w := by
  rw [hv, hw]
  refine .obj names fun name => ?_
  rw [← step_key, ← step_key]
  exact h name

/-- Lists of the same length are the same up to order when each position leads to the same. -/
theorem of_step_index (hv : v = .arr (itemsOf v)) (hw : w = .arr (itemsOf w))
    (length : (itemsOf v).length = (itemsOf w).length)
    (h : ∀ n, Reordered (Path.step v (.index n)) (Path.step w (.index n))) : Reordered v w := by
  rw [hv, hw]
  refine .arr length fun n => ?_
  rw [← step_index, ← step_index]
  exact h n

end Reordered

end Json

namespace Path

open Json (Reordered)

variable {v w x y : Json} {s t : List Segment}

/-! ## One segment -/

theorem length_padTo (n : Nat) (xs : List Json) : (padTo n xs).length = max xs.length n := by
  unfold padTo
  rw [List.length_append, List.length_replicate]
  omega

theorem padTo_of_le {n : Nat} {xs : List Json} (h : n ≤ xs.length) : padTo n xs = xs := by
  unfold padTo
  rw [Nat.sub_eq_zero_of_le h, List.replicate_zero, List.append_nil]

/-- A write goes one segment on, and puts back what was written there. -/
theorem write_cons (x : Json) (a : Segment) (s : List Segment) (v : Json) :
    write x (a :: s) v = write (write x s (step v a)) [a] v := by
  cases a with
  | key name =>
    rw [step_key]
    rfl
  | index n =>
    rw [step_index, ← getD_padTo (n + 1)]
    rfl

theorem step_write_one (x : Json) (a : Segment) (v : Json) : step (write x [a] v) a = x :=
  step_write x a [] v

theorem write_write_one (x y : Json) (a : Segment) (v : Json) :
    write x [a] (write y [a] v) = write x [a] v := by
  cases a with
  | key name => exact congrArg Json.obj (Assoc.put_put name x y (membersOf v))
  | index n =>
    have hlength : n + 1 ≤ ((padTo (n + 1) (itemsOf v)).set n y).length := by
      rw [List.length_set, length_padTo]
      omega
    show Json.arr ((padTo (n + 1) ((padTo (n + 1) (itemsOf v)).set n y)).set n x) = _
    rw [padTo_of_le hlength, List.set_set]
    rfl

theorem keyList_write_one (x v : Json) (name : String) :
    Assoc.keyList (membersOf (write x [.key name] v)) =
      if Assoc.hasKey name (membersOf v) then Assoc.keyList (membersOf v)
      else Assoc.keyList (membersOf v) ++ [name] :=
  Assoc.keyList_put name x (membersOf v)

theorem length_write_one (x v : Json) (n : Nat) :
    (itemsOf (write x [.index n] v)).length = max (itemsOf v).length (n + 1) :=
  List.length_set.trans (length_padTo (n + 1) (itemsOf v))

/-- Writes of values that are the same up to order leave the same up to order what was so. -/
theorem reordered_write_one (hvalue : Reordered x y) (h : Reordered v w) (a : Segment) :
    Reordered (write x [a] v) (write y [a] w) := by
  cases a with
  | key name =>
    refine .of_step_key rfl rfl ?_ fun name' => ?_
    · have hnames := h.names
      have hkey : Assoc.hasKey name (membersOf v) = Assoc.hasKey name (membersOf w) := by
        rw [Bool.eq_iff_iff, Assoc.hasKey_iff_mem, Assoc.hasKey_iff_mem]
        exact hnames.mem_iff
      rw [keyList_write_one, keyList_write_one, hkey]
      split
      · exact hnames
      · exact hnames.append_right _
    · by_cases hname : name = name'
      · rw [← hname, step_write_one, step_write_one]
        exact hvalue
      · rw [step_write_key hname, step_write_key hname]
        exact h.step _
  | index n =>
    refine .of_step_index rfl rfl ?_ fun n' => ?_
    · rw [length_write_one, length_write_one, h.length]
    · by_cases hindex : n = n'
      · rw [← hindex, step_write_one, step_write_one]
        exact hvalue
      · rw [step_write_index hindex, step_write_index hindex]
        exact h.step _

theorem reordered_write_one_key {a b : String} (h : a ≠ b) (x y v : Json) :
    Reordered (write x [.key a] (write y [.key b] v)) (write y [.key b] (write x [.key a] v)) := by
  refine .of_step_key rfl rfl ?_ fun name => ?_
  · have hkey (c d : String) (hcd : d ≠ c) (z : Json) :
        Assoc.hasKey c (membersOf (write z [.key d] v)) = Assoc.hasKey c (membersOf v) :=
      congrArg Option.isSome (Assoc.valueAt?_put_of_ne z _ hcd)
    simp only [keyList_write_one, hkey a b (Ne.symm h), hkey b a h]
    split <;> split <;> try exact .refl _
    -- both are new, and either may come last
    rw [List.append_assoc, List.append_assoc]
    exact List.Perm.append_left _ (List.Perm.swap a b [])
  · by_cases ha : a = name
    · rw [← ha, step_write_one, step_write_key (Ne.symm h), step_write_one]
      exact .refl x
    · rw [step_write_key ha]
      by_cases hb : b = name
      · rw [← hb, step_write_one, step_write_one]
        exact .refl y
      · rw [step_write_key hb, step_write_key hb, step_write_key ha]
        exact .refl _

theorem reordered_write_one_index {m n : Nat} (h : m ≠ n) (x y v : Json) :
    Reordered (write x [.index m] (write y [.index n] v))
      (write y [.index n] (write x [.index m] v)) := by
  refine .of_step_index rfl rfl ?_ fun i => ?_
  · simp only [length_write_one]
    omega
  · by_cases hm : m = i
    · rw [← hm, step_write_one, step_write_index (Ne.symm h), step_write_one]
      exact .refl x
    · rw [step_write_index hm]
      by_cases hn : n = i
      · rw [← hn, step_write_one, step_write_one]
        exact .refl y
      · rw [step_write_index hn, step_write_index hn, step_write_index hm]
        exact .refl _

/-! ## Paths -/

/-- The second of two writes at a path stands. -/
theorem write_write (x y : Json) (s : List Segment) (v : Json) :
    write x s (write y s v) = write x s v := by
  induction s generalizing v with
  | nil => rfl
  | cons a s ih =>
    rw [write_cons x, step_write, ih, write_cons y, write_write_one, ← write_cons]

/-- A write leaves the same up to order what was so. -/
theorem reordered_write (h : Reordered v w) (x : Json) (s : List Segment) :
    Reordered (write x s v) (write x s w) := by
  induction s generalizing v w with
  | nil => exact .refl x
  | cons a s ih =>
    rw [write_cons, write_cons x a s w]
    exact reordered_write_one (ih (h.step a)) h a

/-- Writes at paths that part may change places. -/
theorem reordered_write_comm (apart : Apart s t) (x y v : Json) :
    Reordered (write x s (write y t v)) (write y t (write x s v)) := by
  induction s generalizing t v with
  | nil => cases apart
  | cons a s ih =>
    cases t with
    | nil => cases a <;> cases apart
    | cons b t =>
      by_cases hab : a = b
      · subst hab
        have hrest : Apart s t := by cases a <;> exact apart rfl
        rw [write_cons x, step_write, write_cons y a t v, write_write_one, write_cons y a t,
          step_write, write_cons x a s v, write_write_one]
        exact reordered_write_one (ih hrest (step v a)) (.refl v) a
      · -- the paths part here, so both segments are keys or both are positions
        cases a with
        | key a =>
          cases b with
          | key b =>
            have hne : a ≠ b := fun hname => hab (congrArg Segment.key hname)
            rw [write_cons x, step_write_key (Ne.symm hne), write_cons y (.key b) t v,
              write_cons y (.key b) t, step_write_key hne, write_cons x (.key a) s v]
            exact reordered_write_one_key hne _ _ v
          | index n => cases apart
        | index m =>
          cases b with
          | key b => cases apart
          | index n =>
            have hne : m ≠ n := fun hindex => hab (congrArg Segment.index hindex)
            rw [write_cons x, step_write_index (Ne.symm hne), write_cons y (.index n) t v,
              write_cons y (.index n) t, step_write_index hne, write_cons x (.index m) s v]
            exact reordered_write_one_index hne _ _ v

/-! ## Written paths -/

/-- A path that begins with a key can be written in every object. -/
theorem set_obj {path : String} {name : String} {rest : List Segment}
    (h : parse path = .ok (.key name :: rest)) (members : List (String × Json)) (new : Json) :
    set (.obj members) path new = .ok (write new (.key name :: rest) (.obj members)) := by
  rw [set, setAt, segmentsOf_str, h]
  rfl

/-- A path that parts from one that begins with a key begins with a key. -/
theorem exists_key_of_apart {name : String} {rest : List Segment}
    (h : Apart (.key name :: rest) t) : ∃ name' rest', t = .key name' :: rest' := by
  cases t with
  | nil => cases h
  | cons b t =>
    cases b with
    | key name' => exact ⟨name', t, rfl⟩
    | index n => cases h

/-- A path that begins with a key is always written in an object.  The value is read back there, and
every path that parts from it at two keys or at two positions reads what it has read before.  Writes
at two such paths leave the same document in either order, up to the order of members. -/
theorem reads_after_set {path name : String} {rest : List Segment}
    (hpath : parse path = .ok (.key name :: rest)) (members : List (String × Json)) (v : Json) :
    ∃ document, set (.obj members) path v = .ok document ∧ get document path = .ok v ∧
      ∀ path' segments, parse path' = .ok segments → Apart (.key name :: rest) segments →
        get document path' = get (.obj members) path' ∧
        ∀ v', ∃ document' both both', set (.obj members) path' v' = .ok document' ∧
          set document path' v' = .ok both ∧ set document' path v = .ok both' ∧
          Reordered both both' := by
  have hset := set_obj hpath members v
  refine ⟨_, hset, get_set hset, fun path' segments hpath' apart => ⟨?_, fun v' => ?_⟩⟩
  · refine get_set_of_independent hset fun s t hs ht => ?_
    cases hpath.symm.trans hs
    cases hpath'.symm.trans ht
    exact apart
  · -- the other path begins with a key too, so each of the four writes is into an object
    obtain ⟨name', rest', rfl⟩ := exists_key_of_apart apart
    refine ⟨_, _, _, set_obj hpath' members v', set_obj hpath' _ v', set_obj hpath _ v, ?_⟩
    exact (reordered_write_comm apart v v' (.obj members)).symm

/-- In a document with a text in the place of a list, the name of the third room is written: the
list is created and filled up, and the first room and the address read what they have read. -/
theorem reads_after_set_rooms : ∃ document,
    set (.obj [("rooms", .str "none")]) "rooms[2].name" (.str "Hall") = .ok document ∧
      get document "rooms[2].name" = .ok (.str "Hall") ∧
      get document "rooms[0].name" =
        get (.obj [("rooms", .str "none")]) "rooms[0].name" ∧
      get document "address.city" =
        get (.obj [("rooms", .str "none")]) "address.city" ∧
      ∃ document' both both',
        set (.obj [("rooms", .str "none")]) "rooms[0].name" (.str "Attic") = .ok document' ∧
        set document "rooms[0].name" (.str "Attic") = .ok both ∧
        set document' "rooms[2].name" (.str "Hall") = .ok both' ∧ Reordered both both' := by
  have hpath : parse "rooms[2].name" = .ok [.key "rooms", .index 2, .key "name"] := by rfl
  have hroom : parse "rooms[0].name" = .ok [.key "rooms", .index 0, .key "name"] := by rfl
  have haddress : parse "address.city" = .ok [.key "address", .key "city"] := by rfl
  obtain ⟨document, hset, hget, hapart⟩ :=
    reads_after_set hpath [("rooms", .str "none")] (.str "Hall")
  obtain ⟨hfirst, horder⟩ := hapart _ _ hroom (by decide)
  obtain ⟨hother, -⟩ := hapart _ _ haddress (by decide)
  exact ⟨document, hset, hget, hfirst, hother, horder (.str "Attic")⟩

end Path

end Questionnaire
