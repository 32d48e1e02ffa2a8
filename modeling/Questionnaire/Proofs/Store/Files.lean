import Questionnaire.Proofs.Lookup
import Questionnaire.Proofs.Outcome
import Questionnaire.Proofs.Store.Calls

/-!
# What calls do to files

A call for a user writes or removes files of this user only, and what is read for a user depends on
three files.

## Main Definitions

* `FileStore.pathsOf` - the files that may be written for a user

## Main Statements

* `FileStore.text?_perform` - a call changes no other files
* `FileStore.seenAlike_of_texts` - three files tell all that is read for a user
-/

namespace Questionnaire

open Store Outcome

namespace FileStore

variable {s s' : FileStore} {user path folder : String}

/-- The files that may be written for a user, the drafts beside them included. -/
def pathsOf (user : String) : List String :=
  [fieldsPath user, Place.inFolder "fields" (draftName (dataName user)), pointerPath user,
    Place.inFolder "pointers" (draftName (dataName user)), historyPath user]

@[simp] theorem text?_write (s : FileStore) (path' text path : String) :
    (s.write path' text).text? path = if path' = path then some text else s.text? path := by
  simp [text?, write, Assoc.valueAt?_put (Assoc.isName_of_lawful path')]

@[simp] theorem text?_remove (s : FileStore) (path' path : String) :
    (s.remove path').text? path = if path' = path then none else s.text? path := by
  simp [text?, remove, Assoc.valueAt?_remove (Assoc.isName_of_lawful path')]

/-- The removal of a file that does not exist changes nothing. -/
theorem text?_remove_of_none {path' : String} (h : s.text? path' = none) (path : String) :
    (s.remove path').text? path = s.text? path := by
  rw [text?_remove]
  split
  · next hpath => rw [← hpath, h]
  · rfl

theorem checkLength_eq_ok_iff {part : String} {u : Unit} :
    Place.checkLength part = .ok u ↔ part.utf8ByteSize ≤ Place.maxLength := by
  unfold Place.checkLength
  split
  · simp only [reduceCtorEq, false_iff]
    omega
  · simp only [true_iff]
    omega

theorem writeData_eq_ok_iff {data : Json} : s.writeData folder user data = .ok s' ↔
    (draftName (dataName user)).utf8ByteSize ≤ Place.maxLength ∧
      (s.remove (Place.inFolder folder (draftName (dataName user)))).write
        (Place.inFolder folder (dataName user)) data.writeIndented = s' := by
  simp only [writeData, bind_eq_ok_iff, checkLength_eq_ok_iff, exists_and_left, exists_const,
    pure_eq_ok, Except.ok.injEq]

theorem text?_of_writeData {data : Json} (h : s.writeData folder user data = .ok s')
    (hpath : path ≠ Place.inFolder folder (dataName user))
    (hdraft : path ≠ Place.inFolder folder (draftName (dataName user))) :
    s'.text? path = s.text? path := by
  obtain ⟨-, rfl⟩ := writeData_eq_ok_iff.1 h
  rw [text?_write, if_neg hpath.symm, text?_remove, if_neg hdraft.symm]

theorem exists_saveScopes_of_setFields {scope : Json} {patch : Fields}
    (h : s.setFields user scope patch = .ok s') : ∃ scopes, s.saveScopes user scopes = .ok s' := by
  simp only [setFields, bind_eq_ok_iff] at h
  obtain ⟨-, -, scopes, -, key, -, fields, -, h⟩ := h
  exact ⟨_, h⟩

theorem exists_saveScopes_of_withoutFields {scope : Json} {keys : List Json}
    (h : s.withoutFields user scope keys = .ok s') :
    ∃ scopes, s.saveScopes user scopes = .ok s' := by
  simp only [withoutFields, bind_eq_ok_iff] at h
  obtain ⟨-, -, scopes, -, key, -, h⟩ := h
  split at h
  · exact ⟨_, h⟩
  · obtain ⟨fields, -, h⟩ := bind_eq_ok_iff.1 h
    exact ⟨_, h⟩

/-- What the calls that may fail have in common: a file is changed only if it does. -/
theorem text?_kept {x : Except Fault FileStore}
    (h : ∀ s', x = .ok s' → s'.text? path = s.text? path) :
    (kept s x).1.text? path = s.text? path := by
  cases x with
  | error cause => rfl
  | ok s' => exact h s' rfl

/-- A call for a user changes no files but those of this user. -/
theorem text?_perform (s : FileStore) (user : String) (call : Call) (h : path ∉ pathsOf user) :
    (perform s user call).1.text? path = s.text? path := by
  simp only [pathsOf, List.mem_cons, List.not_mem_nil, or_false, not_or] at h
  obtain ⟨hfields, hfieldsDraft, hpointer, hpointerDraft, hhistory⟩ := h
  cases call with
  | setFields scope patch =>
    refine text?_kept fun s' hs' => ?_
    obtain ⟨scopes, hs'⟩ := exists_saveScopes_of_setFields hs'
    exact text?_of_writeData hs' hfields hfieldsDraft
  | deleteFields scope keys =>
    show (s.deleteFields user scope keys).1.text? path = _
    unfold FileStore.deleteFields
    split
    · next s' hs' =>
      obtain ⟨scopes, hs'⟩ := exists_saveScopes_of_withoutFields hs'
      exact text?_of_writeData hs' hfields hfieldsDraft
    · rfl
  | savePointer p =>
    exact text?_kept fun s' hs' => text?_of_writeData hs' hpointer hpointerDraft
  | deletePointer =>
    refine text?_kept fun s' hs' => ?_
    obtain ⟨-, -, hs'⟩ := bind_eq_ok_iff.1 hs'
    cases hs'
    rw [text?_remove, if_neg (Ne.symm hpointer)]
  | appendCompletion r =>
    refine text?_kept fun s' hs' => ?_
    obtain ⟨-, -, hs'⟩ := bind_eq_ok_iff.1 hs'
    cases hs'
    rw [text?_write, if_neg (Ne.symm hhistory)]

theorem loadScopes_congr (h : s'.text? (fieldsPath user) = s.text? (fieldsPath user)) :
    s'.loadScopes user = s.loadScopes user := by
  unfold loadScopes dataText?
  rw [← fieldsPath, h]

theorem getPointer_congr (h : s'.text? (pointerPath user) = s.text? (pointerPath user)) :
    s'.getPointer user = s.getPointer user := by
  unfold FileStore.getPointer dataText?
  rw [← pointerPath, h]

/-- Whoever finds the same texts in the three files of a user reads the same. -/
theorem seenAlike_of_texts (hfields : s'.text? (fieldsPath user) = s.text? (fieldsPath user))
    (hpointer : s'.text? (pointerPath user) = s.text? (pointerPath user))
    (hhistory : s'.text? (historyPath user) = s.text? (historyPath user)) :
    SeenAlike user s s' where
  fields scope := by
    show s'.getFields user scope = s.getFields user scope
    unfold FileStore.getFields
    rw [loadScopes_congr hfields]
  pointer := getPointer_congr hpointer
  completions := by
    show s'.completions user = s.completions user
    unfold FileStore.completions
    rw [hhistory]

end FileStore

end Questionnaire
