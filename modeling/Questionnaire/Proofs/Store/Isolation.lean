import Questionnaire.Proofs.Store.Files
import Questionnaire.Proofs.Store.Memory

/-!
# Which users are kept apart

The store in memory keeps all users apart.  The store in files keeps them under the names that stand
for them in paths, so users of one name share their files, unless the name is too long for any file.

## Main Statements

* `MemoryStore.isolates` - no call for a user is seen by another one in memory
* `FileStore.isolates_iff` - which users are kept apart in files
* `FileStore.not_isolates_slash` - two users who share their files
-/

namespace Questionnaire

open Store Outcome

/-! ## In memory -/

namespace MemoryStore

/-- The removal of keys leaves everything of other users alone. -/
theorem Elsewhere.deleteFields (m : MemoryStore) (user : String) (scope : Json) (keys : List Json) :
    Elsewhere user m (m.deleteFields user scope keys).1 := by
  unfold MemoryStore.deleteFields
  split
  · exact .refl user m
  split
  · exact .refl user m
  · refine ⟨fun _ _ => rfl, fun _ _ => rfl, fun other hne => ?_⟩
    unfold MemoryStore.scopes
    rw [Assoc.valueAt?_put (Assoc.isName_of_lawful user), if_neg]
    exact fun same => hne (eq_of_beq same).symm

/-- Every call leaves everything of other users alone. -/
theorem elsewhere_perform (m : MemoryStore) (user : String) (call : Call) :
    Elsewhere user m (perform m user call).1 := by
  cases call with
  | setFields scope patch =>
    show Elsewhere user m (kept m (m.setFields user scope patch)).1
    unfold MemoryStore.setFields
    cases scope.asKey with
    | error cause => exact .refl user m
    | ok key => exact .patched m user key patch
  | deleteFields scope keys => exact .deleteFields m user scope keys
  | savePointer p => exact .savePointer m user p
  | deletePointer => exact .deletePointer m user
  | appendCompletion r => exact .appendCompletion m user r

/-- In memory no call for a user is seen by another one. -/
theorem isolates {user other : String} (h : user ≠ other) :
    Isolates ({} : MemoryStore) user other := by
  intro calls call
  have elsewhere := elsewhere_perform (play {} calls) user call
  refine ⟨fun scope => ?_, ?_, ?_⟩
  · show MemoryStore.getFields _ other scope = MemoryStore.getFields _ other scope
    rw [MemoryStore.getFields, elsewhere.scopes other h.symm]
    rfl
  · exact congrArg Except.ok (elsewhere.pointer other h.symm)
  · exact congrArg Except.ok (elsewhere.records other h.symm)

end MemoryStore

/-! ## In files -/

namespace FileStore

variable {s s' : FileStore} {user other folder : String}

/-! ### Names of files -/

theorem head?_inFolder (h : folder ∈ Place.folders) (name : String) :
    (Place.inFolder folder name).toList.head? = folder.toList.head? := by
  simp only [Place.folders, List.mem_cons, List.not_mem_nil, or_false] at h
  rcases h with rfl | rfl | rfl <;> simp [Place.inFolder]

/-- The folders are told apart by the letters that they begin with. -/
theorem eq_of_head? : ∀ f ∈ Place.folders, ∀ g ∈ Place.folders,
    f.toList.head? = g.toList.head? → f = g := by
  decide

/-- A path tells the name of its file. -/
theorem eq_of_inFolder_eq {folder' name name' : String} (h : folder ∈ Place.folders)
    (h' : folder' ∈ Place.folders)
    (heq : Place.inFolder folder name = Place.inFolder folder' name') : name = name' := by
  have heads := congrArg (fun path => path.toList.head?) heq
  rw [head?_inFolder h, head?_inFolder h'] at heads
  obtain rfl := eq_of_head? folder h folder' h' heads
  simpa [Place.inFolder, ← String.toList_inj] using heq

theorem dataName_eq_iff : dataName user = dataName other ↔ safeName user = safeName other := by
  simp [dataName, ← String.toList_inj]

theorem linesName_eq_iff : linesName user = linesName other ↔ safeName user = safeName other := by
  simp [linesName, ← String.toList_inj]

/-- The three kinds of names are told apart by the letters that they end with. -/
theorem dataName_ne_draftName (other user : String) :
    dataName other ≠ draftName (dataName user) := by
  intro h
  have lasts := congrArg (fun name => name.toList.reverse.head?) h
  simp [draftName, dataName] at lasts

theorem dataName_ne_linesName (other user : String) : dataName other ≠ linesName user := by
  intro h
  have lasts := congrArg (fun name => name.toList.reverse.head?) h
  simp [linesName, dataName] at lasts

theorem linesName_ne_draftName (other user : String) :
    linesName other ≠ draftName (dataName user) := by
  intro h
  have lasts := congrArg (fun name => name.toList.reverse.head?) h
  simp [draftName, linesName] at lasts

theorem notMem_pathsOf {name : String} (h : folder ∈ Place.folders) (hdata : name ≠ dataName user)
    (hdraft : name ≠ draftName (dataName user)) (hlines : name ≠ linesName user) :
    Place.inFolder folder name ∉ pathsOf user := by
  have apart {folder' name' : String} (h' : folder' ∈ Place.folders) (hne : name ≠ name') :
      Place.inFolder folder name ≠ Place.inFolder folder' name' :=
    fun heq => hne (eq_of_inFolder_eq h h' heq)
  simp only [pathsOf, List.mem_cons, List.not_mem_nil, or_false, not_or]
  exact ⟨apart (by decide) hdata, apart (by decide) hdraft, apart (by decide) hdata,
    apart (by decide) hdraft, apart (by decide) hlines⟩

theorem dataPath_notMem (h : folder ∈ Place.folders) (hne : safeName user ≠ safeName other) :
    Place.inFolder folder (dataName other) ∉ pathsOf user :=
  notMem_pathsOf h (fun heq => hne (dataName_eq_iff.1 heq).symm) (dataName_ne_draftName other user)
    (dataName_ne_linesName other user)

theorem historyPath_notMem (hne : safeName user ≠ safeName other) :
    historyPath other ∉ pathsOf user :=
  notMem_pathsOf (by decide) (dataName_ne_linesName user other).symm
    (linesName_ne_draftName other user) fun heq => hne (linesName_eq_iff.1 heq).symm

/-- Users whose names in paths differ are kept apart, whatever the files hold. -/
theorem seenAlike_of_safeName_ne (h : safeName user ≠ safeName other) (s : FileStore)
    (call : Call) : SeenAlike other s (perform s user call).1 :=
  seenAlike_of_texts (text?_perform s user call (dataPath_notMem (by decide) h))
    (text?_perform s user call (dataPath_notMem (by decide) h))
    (text?_perform s user call (historyPath_notMem h))

/-! ### Names that are too long -/

theorem draftName_too_long (h : Place.maxLength < (linesName user).utf8ByteSize) :
    ¬ (draftName (dataName user)).utf8ByteSize ≤ Place.maxLength := by
  simp only [linesName, draftName, dataName, String.utf8ByteSize_append] at h ⊢
  have : ".jsonl".utf8ByteSize = 6 := by decide
  have : ".json".utf8ByteSize = 5 := by decide
  have : ".tmp".utf8ByteSize = 4 := by decide
  omega

/-- A call for a user whose name is too long for lines removes the pointer at most. -/
theorem perform_of_too_long (h : Place.maxLength < (linesName user).utf8ByteSize) (s : FileStore)
    (call : Call) :
    (perform s user call).1 = s ∨ (perform s user call).1 = s.remove (pointerPath user) := by
  have unwritten {folder : String} {data : Json} {s' : FileStore} :
      s.writeData folder user data ≠ .ok s' :=
    fun hs' => draftName_too_long h (writeData_eq_ok_iff.1 hs').1
  have keeps {x : Except Fault FileStore} (hx : ∀ s', x ≠ .ok s') : (kept s x).1 = s := by
    cases x with
    | error cause => rfl
    | ok s' => exact absurd rfl (hx s')
  cases call with
  | setFields scope patch =>
    refine .inl (keeps fun s' hs' => ?_)
    obtain ⟨scopes, hs'⟩ := exists_saveScopes_of_setFields hs'
    exact unwritten hs'
  | deleteFields scope keys =>
    refine .inl ?_
    show (s.deleteFields user scope keys).1 = s
    unfold FileStore.deleteFields
    split
    · next s' hs' =>
      obtain ⟨scopes, hs'⟩ := exists_saveScopes_of_withoutFields hs'
      exact absurd hs' unwritten
    · rfl
  | savePointer p => exact .inl (keeps fun s' => unwritten)
  | deletePointer =>
    show (kept s (s.deletePointer user)).1 = s ∨ (kept s (s.deletePointer user)).1 = _
    unfold FileStore.deletePointer
    cases Place.checkLength (dataName user) with
    | error cause => exact .inl rfl
    | ok u => exact .inr rfl
  | appendCompletion r =>
    refine .inl (keeps fun s' hs' => ?_)
    obtain ⟨u, hu, -⟩ := bind_eq_ok_iff.1 hs'
    have := checkLength_eq_ok_iff.1 hu
    omega

/-- There is never a pointer under a name that is too long for lines. -/
theorem text?_pointerPath_of_too_long (h : Place.maxLength < (linesName other).utf8ByteSize)
    (calls : List (String × Call)) :
    (play ({} : FileStore) calls).text? (pointerPath other) = none := by
  refine play_induct (P := fun s : FileStore => s.text? (pointerPath other) = none) ?_ rfl calls
  intro s user call hnone
  by_cases hsame : safeName user = safeName other
  · rw [← linesName_eq_iff.2 hsame] at h
    rcases perform_of_too_long h s call with hs | hs <;> rw [hs]
    · exact hnone
    · rw [text?_remove]
      split
      · rfl
      · exact hnone
  · exact (text?_perform s user call (dataPath_notMem (by decide) hsame)).trans hnone

/-! ### Who is kept apart -/

/-- A completion without any values. -/
def emptyRecord : CompletionRecord := ⟨.null, .null, .null, .null⟩

/-- The file with this completion is read as one completion. -/
theorem gives_emptyRecord :
    Gives ((recordLines ("" ++ emptyRecord.toJson.write ++ "\n")).mapM fun line => do
      let data ← Json.require line
      CompletionRecord.ofJson data) fun records => records ≠ [] := by
  decide +kernel

/-- The first completion of a user is seen by all users of the same name in paths. -/
theorem not_isolates_of_safeName_eq (hsame : safeName user = safeName other)
    (hlength : (linesName user).utf8ByteSize ≤ Place.maxLength) :
    ¬ Isolates ({} : FileStore) user other := by
  intro isolates
  have seen := (isolates [] (.appendCompletion emptyRecord)).completions
  have checked : Place.checkLength (linesName user) = .ok () := checkLength_eq_ok_iff.2 hlength
  have appended : ({} : FileStore).appendCompletion user emptyRecord =
      .ok (({} : FileStore).write (historyPath user) ("" ++ emptyRecord.toJson.write ++ "\n")) := by
    rw [FileStore.appendCompletion, checked]
    rfl
  have before : ({} : FileStore).completions other = .ok [] := by
    rw [FileStore.completions, ← linesName_eq_iff.2 hsame, checked]
    rfl
  change (kept {} (({} : FileStore).appendCompletion user emptyRecord)).1.completions other =
    ({} : FileStore).completions other at seen
  have samePath : historyPath user = historyPath other :=
    congrArg (Place.inFolder "history") (linesName_eq_iff.2 hsame)
  rw [appended, before, kept, FileStore.completions, ← linesName_eq_iff.2 hsame, checked, ok_bind,
    text?_write, if_pos samePath] at seen
  obtain ⟨records, hrecords, hne⟩ := gives_emptyRecord
  cases hrecords.symm.trans seen
  exact hne rfl

/-- No call for a user is seen by another one exactly if the two have different names in paths or a
name that is too long for lines, in which case nothing is ever kept. -/
theorem isolates_iff (user other : String) : Isolates ({} : FileStore) user other ↔
    safeName user ≠ safeName other ∨ Place.maxLength < (linesName user).utf8ByteSize := by
  constructor
  · intro isolates
    by_cases hsame : safeName user = safeName other
    · exact .inr (Nat.lt_of_not_le fun h => not_isolates_of_safeName_eq hsame h isolates)
    · exact .inl hsame
  · intro h calls call
    by_cases hsame : safeName user = safeName other
    · have long := h.resolve_left (not_not_intro hsame)
      have hnone := text?_pointerPath_of_too_long long calls
      rcases perform_of_too_long long (play {} calls) call with hs | hs <;> rw [hs]
      · exact ⟨fun _ => rfl, rfl, rfl⟩
      · exact seenAlike_of_texts (text?_remove_of_none hnone _) (text?_remove_of_none hnone _)
          (text?_remove_of_none hnone _)
    · exact seenAlike_of_safeName_ne hsame _ call

/-- A slash is not safe in paths and becomes an underscore, so these two users share their files. -/
theorem not_isolates_slash : "a/b" ≠ "a_b" ∧ ¬ Isolates ({} : FileStore) "a/b" "a_b" :=
  ⟨by decide, not_isolates_of_safeName_eq (by decide +kernel) (by decide +kernel)⟩

end FileStore

end Questionnaire
