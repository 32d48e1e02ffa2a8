import Questionnaire.Json.Path
import Questionnaire.Proofs.Json.WellFormed
import Questionnaire.Proofs.Outcome

/-!
# Writing at a path

A write at a path keeps a well-formed value well formed, and an object an object.  The value is read
back at the path, and a path that parts from it leads to the same value as before.

## Main Definitions

* `Json.IsDocument` - a well-formed object
* `Path.Apart`, `Path.Independent` - paths that part at two keys or at two positions

## Main Statements

* `Path.isDocument_set` - a write at a path gives a document again
* `Path.get_set`, `Path.get_set_of_independent` - what is read after a write
-/

namespace Questionnaire

/-- A well-formed object. -/
structure Json.IsDocument (v : Json) : Prop where
  /-- It is well formed. -/
  wellFormed : v.WellFormed
  /-- It is an object. -/
  isObject : ∃ ms, v = .obj ms

theorem Json.isDocument_empty : Json.IsDocument (.obj []) :=
  ⟨.obj (by simp) (by simp), [], rfl⟩

namespace Path

open Json (WellFormed IsDocument)

theorem mem_membersOf {v : Json} (h : v.WellFormed) :
    ((membersOf v).map (·.1)).Nodup ∧ ∀ m ∈ membersOf v, WellFormed m.2 := by
  cases h with
  | obj distinct members => exact ⟨distinct, members⟩
  | _ => exact ⟨List.nodup_nil, by simp [membersOf]⟩

theorem mem_itemsOf {v : Json} (h : v.WellFormed) : ∀ w ∈ itemsOf v, WellFormed w := by
  cases h with
  | arr items => exact items
  | _ => simp [itemsOf]

theorem mem_padTo {n : Nat} {xs : List Json} (h : ∀ v ∈ xs, WellFormed v) :
    ∀ v ∈ padTo n xs, WellFormed v := by
  intro v hv
  rcases List.mem_append.1 hv with hv | hv
  · exact h v hv
  · rw [(List.mem_replicate.1 hv).2]
    exact .null

theorem wellFormed_getD {o : Option Json} (h : ∀ v, o = some v → v.WellFormed) :
    (o.getD .null).WellFormed := by
  cases o with
  | none => exact .null
  | some v => exact h v rfl

theorem wellFormed_write {new : Json} (hnew : new.WellFormed) (segments : List Segment) {v : Json}
    (hv : v.WellFormed) : (write new segments v).WellFormed := by
  induction segments generalizing v with
  | nil => exact hnew
  | cons s rest ih =>
    cases s with
    | key name =>
      -- anything but an object is replaced by an empty one
      obtain ⟨hdistinct, hmembers⟩ := mem_membersOf hv
      have hold : ((Assoc.valueAt? name (membersOf v)).getD .null).WellFormed :=
        wellFormed_getD fun w hw => by
          obtain ⟨e, he, -, rfl⟩ := Assoc.mem_of_valueAt? hw
          exact hmembers e he
      refine .obj (Assoc.nodup_put _ hdistinct) fun m hm => ?_
      rcases Assoc.mem_put_or hm with hm | hm
      · exact hmembers m hm
      · rw [hm]
        exact ih hold
    | index n =>
      -- a list that is too short is filled up with absent values
      have hitems := mem_padTo (n := n + 1) (mem_itemsOf hv)
      have hold : (((padTo (n + 1) (itemsOf v))[n]?).getD .null).WellFormed :=
        wellFormed_getD fun w hw => hitems w (List.mem_of_getElem? hw)
      refine .arr fun w hw => ?_
      rcases List.mem_or_eq_of_mem_set hw with hw | rfl
      · exact hitems w hw
      · exact ih hold

/-- A write at a path gives a document again. -/
theorem isDocument_set {document document' new : Json} {path : String}
    (hdocument : document.IsDocument) (hnew : new.WellFormed)
    (h : set document path new = .ok document') : document'.IsDocument := by
  unfold set setAt at h
  obtain ⟨segments, -, h⟩ := Outcome.bind_eq_ok_iff.1 h
  cases segments with
  | nil => cases h
  | cons s rest =>
    dsimp only at h
    split at h
    · rename_i hfits
      cases h
      refine ⟨wellFormed_write hnew _ hdocument.wellFormed, ?_⟩
      obtain ⟨ms, rfl⟩ := hdocument.isObject
      cases s with
      | key name => exact ⟨_, rfl⟩
      -- a path that starts with an index does not fit a document
      | index n => cases hfits
    · cases h

/-! ## Reading back -/

/-- Segments that part at two keys or at two positions. -/
def Apart : List Segment → List Segment → Prop
  | .key a :: s, .key b :: t => a = b → Apart s t
  | .index m :: s, .index n :: t => m = n → Apart s t
  | _, _ => False

/-- Written paths whose segments part at two keys or at two positions. -/
def Independent (path path' : String) : Prop :=
  ∀ s t, parse path = .ok s → parse path' = .ok t → Apart s t

instance decidableApart : (s t : List Segment) → Decidable (Apart s t)
  | .key a :: s, .key b :: t =>
    have := decidableApart s t
    inferInstanceAs (Decidable (a = b → Apart s t))
  | .index m :: s, .index n :: t =>
    have := decidableApart s t
    inferInstanceAs (Decidable (m = n → Apart s t))
  | [], _ => isFalse id
  | .key _ :: _, [] => isFalse id
  | .key _ :: _, .index _ :: _ => isFalse id
  | .index _ :: _, [] => isFalse id
  | .index _ :: _, .key _ :: _ => isFalse id

instance decidableIndependent (path path' : String) : Decidable (Independent path path') :=
  match hs : parse path, ht : parse path' with
  | .ok s, .ok t => decidable_of_iff (Apart s t)
      ⟨fun h _ _ hs' ht' => by cases hs.symm.trans hs'; cases ht.symm.trans ht'; exact h,
        fun h => h s t hs ht⟩
  | .error _, _ => isTrue fun _ _ hs' _ => by cases hs.symm.trans hs'
  | .ok _, .error _ => isTrue fun _ _ _ ht' => by cases ht.symm.trans ht'

variable {new v : Json}

theorem step_key (v : Json) (name : String) :
    step v (.key name) = (Assoc.valueAt? name (membersOf v)).getD .null := by
  cases v <;> rfl

theorem step_index (v : Json) (n : Nat) : step v (.index n) = (itemsOf v)[n]?.getD .null := by
  cases v <;> rfl

theorem getD_padTo (n k : Nat) (xs : List Json) :
    (padTo n xs)[k]?.getD .null = xs[k]?.getD .null := by
  unfold padTo
  by_cases hk : k < xs.length
  · rw [List.getElem?_append_left hk]
  · have hk : xs.length ≤ k := Nat.le_of_not_lt hk
    rw [List.getElem?_append_right hk, List.getElem?_eq_none hk, List.getElem?_replicate]
    split <;> rfl

theorem lt_length_padTo (n : Nat) (xs : List Json) : n < (padTo (n + 1) xs).length := by
  unfold padTo
  rw [List.length_append, List.length_replicate]
  omega

/-- What one segment of a write leads to. -/
theorem step_write (new : Json) (s : Segment) (rest : List Segment) (v : Json) :
    step (write new (s :: rest) v) s = write new rest (step v s) := by
  cases s with
  | key name =>
    rw [step_key, step_key]
    show (Assoc.valueAt? name (Assoc.put name _ (membersOf v))).getD .null = _
    rw [Assoc.valueAt?_put (Assoc.isName_of_lawful name), if_pos (beq_self_eq_true name)]
    rfl
  | index n =>
    rw [step_index, step_index]
    show (List.set (padTo (n + 1) (itemsOf v)) n _)[n]?.getD .null = _
    rw [List.getElem?_set_self (lt_length_padTo n (itemsOf v)), getD_padTo]
    rfl

theorem step_write_key {a b : String} (h : a ≠ b) (rest : List Segment) (v : Json) :
    step (write new (.key a :: rest) v) (.key b) = step v (.key b) := by
  rw [step_key, step_key]
  show (Assoc.valueAt? b (Assoc.put a _ (membersOf v))).getD .null = _
  rw [Assoc.valueAt?_put (Assoc.isName_of_lawful a), if_neg (by simpa using h)]

theorem step_write_index {m n : Nat} (h : m ≠ n) (rest : List Segment) (v : Json) :
    step (write new (.index m :: rest) v) (.index n) = step v (.index n) := by
  rw [step_index, step_index]
  show (List.set (padTo (m + 1) (itemsOf v)) m _)[n]?.getD .null = _
  rw [List.getElem?_set_ne h, getD_padTo]

theorem follow_write (new : Json) (segments : List Segment) (v : Json) :
    follow (write new segments v) segments = new := by
  induction segments generalizing v with
  | nil => rfl
  | cons s rest ih => rw [follow, step_write, ih]

/-- Segments that part from those of a write lead to what they have led to. -/
theorem follow_write_of_apart {s t : List Segment} (h : Apart s t) (v : Json) :
    follow (write new s v) t = follow v t := by
  induction s generalizing t v with
  | nil => cases h
  | cons a s ih =>
    cases t with
    | nil => cases a <;> cases h
    | cons b t =>
      rw [follow, follow]
      by_cases hab : a = b
      · subst hab
        have hrest : Apart s t := by cases a <;> exact h rfl
        rw [step_write, ih hrest]
      · -- the paths part here, so both segments are keys or both are positions
        cases a with
        | key a =>
          cases b with
          | key b => rw [step_write_key fun hname => hab (congrArg Segment.key hname)]
          | index n => cases h
        | index m =>
          cases b with
          | key b => cases h
          | index n => rw [step_write_index fun hindex => hab (congrArg Segment.index hindex)]

/-- Writing at a path writes at its segments. -/
theorem exists_write_of_set {document document' : Json} {path : String}
    (h : set document path new = .ok document') :
    ∃ segments, parse path = .ok segments ∧ document' = write new segments document := by
  obtain ⟨segments, hsegments, h⟩ := Outcome.bind_eq_ok_iff.1 h
  refine ⟨segments, hsegments, ?_⟩
  cases segments with
  | nil => cases h
  | cons s rest =>
    dsimp only at h
    split at h
    · cases h
      rfl
    · cases h

/-- What was written at a path is read back there. -/
theorem get_set {document document' : Json} {path : String}
    (h : set document path new = .ok document') : get document' path = .ok new := by
  obtain ⟨segments, hsegments, rfl⟩ := exists_write_of_set h
  rw [get, hsegments, Outcome.ok_bind, follow_write]
  rfl

/-- An independent path reads what it has read before a write. -/
theorem get_set_of_independent {document document' : Json} {path path' : String}
    (h : set document path new = .ok document') (independent : Independent path path') :
    get document' path' = get document path' := by
  obtain ⟨segments, hsegments, rfl⟩ := exists_write_of_set h
  unfold get
  cases hother : parse path' with
  | error e => rfl
  | ok segments' =>
    rw [Outcome.ok_bind, Outcome.ok_bind,
      follow_write_of_apart (independent segments segments' hsegments hother)]

end Path

end Questionnaire
