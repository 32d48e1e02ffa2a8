import Questionnaire.Json.Reading
import Questionnaire.Proofs.Lookup
import Questionnaire.Proofs.Number.ReadBack
import Questionnaire.Proofs.Outcome

/-!
# Well-formed data

A number of the binary format has one proper form, and an object has each of its names once.  Every
value that is read keeps to both.

## Main Definitions

* `Json.WellFormed` - numbers of the format, and objects whose names are distinct

## Main Statements

* `Json.wellFormed_of_read` - a value that is read is well formed
-/

namespace Questionnaire

namespace Assoc

variable {α : Type}

theorem put_of_notMem {k : String} (v : α) {m : Assoc String α} (h : k ∉ m.map (·.1)) :
    put k v m = m ++ [(k, v)] := by
  induction m with
  | nil => rfl
  | cons e m ih =>
    have hne : ¬(e.1 == k) = true := fun he => h (by simp [eq_of_beq he])
    rw [put, if_neg hne, ih fun hm => h (List.mem_cons_of_mem _ hm)]
    rfl

theorem overlay_of_nodup {base entries : Assoc String α}
    (h : ((base ++ entries).map (·.1)).Nodup) : overlay base entries = base ++ entries := by
  induction entries generalizing base with
  | nil => rw [List.append_nil]; rfl
  | cons e entries ih =>
    have hnot : e.1 ∉ base.map (·.1) := by
      rw [List.map_append, List.nodup_append] at h
      exact fun hmem => h.2.2 _ hmem _ (by simp) rfl
    rw [overlay, List.foldl_cons, put_of_notMem e.2 hnot, ← overlay, ih (by simpa using h)]
    simp

/-- Entries under distinct names stay as they are. -/
theorem ofEntries_of_nodup {entries : Assoc String α} (h : (entries.map (·.1)).Nodup) :
    ofEntries entries = entries := overlay_of_nodup (by simpa using h)

theorem hasKey_iff_mem {k : String} {m : Assoc String α} :
    hasKey k m = true ↔ k ∈ m.map (·.1) := by
  induction m with
  | nil => simp [hasKey]
  | cons e m ih =>
    unfold hasKey at ih ⊢
    rw [valueAt?_cons]
    by_cases he : e.1 = k
    · simp [he]
    · rw [if_neg (by simpa using he), ih]
      simp [Ne.symm he]

theorem nodup_put {k : String} (v : α) {m : Assoc String α} (h : (m.map (·.1)).Nodup) :
    ((put k v m).map (·.1)).Nodup := by
  have hkeys := keyList_put k v m
  unfold keyList at hkeys
  rw [hkeys]
  split
  · exact h
  · rename_i hfree
    refine List.nodup_append.2 ⟨h, by simp, ?_⟩
    rintro a ha b hb rfl
    rw [List.mem_singleton.1 hb] at ha
    exact hfree (hasKey_iff_mem.2 ha)

theorem nodup_overlay {base entries : Assoc String α} (h : (base.map (·.1)).Nodup) :
    ((overlay base entries).map (·.1)).Nodup := by
  induction entries generalizing base with
  | nil => exact h
  | cons e entries ih => exact ih (nodup_put e.2 h)

end Assoc

namespace Json

/-- A value that is held in its one proper form: floating point numbers are numbers of the format,
and the names in an object are distinct. -/
inductive WellFormed : Json → Prop where
  /-- The absent value. -/
  | null : WellFormed .null
  /-- A truth value. -/
  | bool (b : Bool) : WellFormed (.bool b)
  /-- An integer. -/
  | int (n : Int) : WellFormed (.int n)
  /-- A number of the format. -/
  | float {x : Binary64} (canonical : x.IsCanonical) : WellFormed (.float x)
  /-- A text. -/
  | str (s : String) : WellFormed (.str s)
  /-- A list of well-formed values. -/
  | arr {xs : List Json} (items : ∀ v ∈ xs, WellFormed v) : WellFormed (.arr xs)
  /-- Well-formed values under distinct names. -/
  | obj {ms : List (String × Json)} (distinct : (ms.map (·.1)).Nodup)
      (members : ∀ m ∈ ms, WellFormed m.2) : WellFormed (.obj ms)

@[simp] theorem wellFormed_null : WellFormed .null := .null

@[simp] theorem wellFormed_bool (b : Bool) : WellFormed (.bool b) := .bool b

@[simp] theorem wellFormed_int (n : Int) : WellFormed (.int n) := .int n

@[simp] theorem wellFormed_str (s : String) : WellFormed (.str s) := .str s

@[simp] theorem wellFormed_arr_iff {xs : List Json} :
    WellFormed (.arr xs) ↔ ∀ v ∈ xs, WellFormed v := by
  constructor
  · intro h
    cases h with
    | arr items => exact items
  · exact .arr

@[simp] theorem wellFormed_obj_iff {ms : List (String × Json)} :
    WellFormed (.obj ms) ↔ (ms.map (·.1)).Nodup ∧ ∀ m ∈ ms, WellFormed m.2 := by
  constructor
  · intro h
    cases h with
    | obj distinct members => exact ⟨distinct, members⟩
  · rintro ⟨distinct, members⟩
    exact .obj distinct members

/-! ## Values that are read -/

namespace Reader

theorem wellFormed_number {negative : Bool} {cs rest : List Char} {v : Json}
    (h : number negative cs = .ok (v, rest)) : WellFormed v := by
  unfold number at h
  dsimp only at h
  split at h
  · cases h
  · split at h
    · split at h
      · cases h
      · cases h
        exact .int _
    · cases h
      exact .float (Binary64.isCanonical_ofDecimal _ _ _)
    · cases h
      exact .float (Binary64.isCanonical_ofDecimal _ _ _)

theorem eq_of_word {spelling : String} {v w : Json} {cs rest : List Char}
    (h : word spelling v cs = .ok (w, rest)) : w = v := by
  unfold word at h
  split at h
  · cases h
    rfl
  · cases h

theorem wellFormed_scalar {cs rest : List Char} {v : Json} (h : scalar cs = .ok (v, rest)) :
    WellFormed v := by
  unfold scalar at h
  split at h
  · exact eq_of_word h ▸ .null
  · exact eq_of_word h ▸ .bool true
  · exact eq_of_word h ▸ .bool false
  · exact eq_of_word h ▸ .float trivial
  · exact eq_of_word h ▸ .float trivial
  · exact eq_of_word h ▸ .float trivial
  · exact wellFormed_number h
  · exact wellFormed_number h

/-- The readers with some fuel give only what is well formed. -/
structure Sound (fuel : Nat) : Prop where
  /-- The values that are read. -/
  value : ∀ {cs rest v}, Reader.value fuel cs = .ok (v, rest) → WellFormed v
  /-- The items that are read. -/
  items : ∀ {cs rest vs}, Reader.items fuel cs = .ok (vs, rest) → ∀ v ∈ vs, WellFormed v
  /-- The members that are read. -/
  members : ∀ {cs rest ms}, Reader.members fuel cs = .ok (ms, rest) → ∀ m ∈ ms, WellFormed m.2

variable {fuel : Nat} {cs rest : List Char}

theorem Sound.wellFormed_value (sound : Sound fuel) {v : Json}
    (h : Reader.value (fuel + 1) cs = .ok (v, rest)) : WellFormed v := by
  rw [value.eq_def] at h
  split at h
  · cases h
  · obtain ⟨p, -, hp⟩ := Outcome.map_eq_ok_iff.1 h
    cases hp
    exact .str _
  · rename_i hfuel
    cases hfuel
    split at h
    · cases h
      exact .arr (by simp)
    · obtain ⟨p, hitems, hp⟩ := Outcome.map_eq_ok_iff.1 h
      cases hp
      exact .arr (sound.items hitems)
  · rename_i hfuel
    cases hfuel
    split at h
    · cases h
      exact .obj (by simp) (by simp)
    · -- of members under one name the last one stays
      obtain ⟨p, hmembers, hp⟩ := Outcome.map_eq_ok_iff.1 h
      cases hp
      refine .obj (Assoc.nodup_overlay (by simp)) fun m hm => ?_
      rcases Assoc.mem_overlay_or hm with hm | ⟨d, hd, hvalue⟩
      · cases hm
      · rw [hvalue]
        exact sound.members hmembers d hd
  · exact wellFormed_scalar h

theorem Sound.wellFormed_items (sound : Sound fuel) {vs : List Json}
    (h : Reader.items (fuel + 1) cs = .ok (vs, rest)) : ∀ v ∈ vs, WellFormed v := by
  rw [Reader.items] at h
  split at h
  · cases h
  · rename_i v tail hvalue
    split at h
    · obtain ⟨p, hitems, hp⟩ := Outcome.map_eq_ok_iff.1 h
      cases hp
      exact List.forall_mem_cons.2 ⟨sound.value hvalue, sound.items hitems⟩
    · cases h
      exact List.forall_mem_cons.2 ⟨sound.value hvalue, by simp⟩
    · cases h

theorem Sound.wellFormed_members (sound : Sound fuel) {ms : List (String × Json)}
    (h : Reader.members (fuel + 1) cs = .ok (ms, rest)) : ∀ m ∈ ms, WellFormed m.2 := by
  rw [members.eq_def] at h
  dsimp only at h
  split at h
  · split at h
    · cases h
    · split at h
      · split at h
        · cases h
        · rename_i v tail hvalue
          split at h
          · obtain ⟨p, hmembers, hp⟩ := Outcome.map_eq_ok_iff.1 h
            cases hp
            exact List.forall_mem_cons.2 ⟨sound.value hvalue, sound.members hmembers⟩
          · cases h
            exact List.forall_mem_cons.2 ⟨sound.value hvalue, by simp⟩
          · cases h
      · cases h
  · cases h

/-- What the readers of values, items and members give is well formed. -/
theorem sound (fuel : Nat) : Sound fuel := by
  induction fuel with
  -- without fuel the readers fail
  | zero =>
    constructor
    · intro cs rest v h
      rw [value] at h
      cases h
    · intro cs rest vs h
      rw [items] at h
      cases h
    · intro cs rest ms h
      rw [members] at h
      cases h
  | succ fuel ih => exact ⟨ih.wellFormed_value, ih.wellFormed_items, ih.wellFormed_members⟩

end Reader

/-- A value that is read is well formed. -/
theorem wellFormed_of_read {s : String} {v : Json} (h : read s = .ok v) : WellFormed v := by
  unfold read at h
  dsimp only at h
  split at h
  · cases h
  · rename_i w rest hvalue
    split at h
    · cases h
      exact (Reader.sound _).value hvalue
    · cases h

theorem wellFormed_of_read? {s : String} {v : Json} (h : read? s = some v) : WellFormed v := by
  unfold read? at h
  cases hread : read s with
  | error e =>
    rw [hread] at h
    cases h
  | ok w =>
    rw [hread] at h
    cases h
    exact wellFormed_of_read hread

/-- The data in a stored value is well formed. -/
theorem wellFormed_decoded {default v : Json} (hdefault : WellFormed default)
    (hv : WellFormed v) : WellFormed (decoded default v) := by
  unfold decoded
  split
  · exact hdefault
  · rename_i s
    cases h : read? (Text.trim s) with
    | none => exact hdefault
    | some w => exact wellFormed_of_read? h
  · exact hv

end Json

end Questionnaire
