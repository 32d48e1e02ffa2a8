import Questionnaire.Proofs.Json.Lines
import Questionnaire.Proofs.Store.Account
import Questionnaire.Proofs.Store.Isolation

/-!
# Accounts in files

The three files of a user hold an account: the scopes and the pointer as data, and the completions
on lines.  As long as the names of the files are not too long and the values read back from their
written form, every call for the user turns files that hold an account into files that hold the
account after the call.

## Main Definitions

* `Json.Storable` - a value that reads back from its written form
* `Call.Storable` - a call with such values
* `FileStore.Keeps` - the files of a user hold an account

## Main Statements

* `FileStore.Keeps.perform` - the files after a call hold the account after it
* `FileStore.Keeps.shownBy` - the account in the files is read as it is
-/

namespace Questionnaire

open Store Outcome

/-! ## Values that read back -/

namespace Json

/-- A value that reads back from its written form. -/
structure Storable (v : Json) : Prop where
  /-- It is held in its one proper form. -/
  wellFormed : v.WellFormed
  /-- No integer in it has too many digits. -/
  short : v.longestInt ≤ maxDigits

theorem Storable.read_writeIndented {v : Json} (storable : Storable v) :
    Json.require v.writeIndented = .ok v := by
  rw [Json.require, Json.read_writeIndented storable.wellFormed storable.short]

theorem Storable.read_write {v : Json} (storable : Storable v) : Json.require v.write = .ok v := by
  rw [Json.require, Json.read_write storable.wellFormed storable.short]

@[simp] theorem storable_null : Storable .null := ⟨.null, Nat.zero_le _⟩

@[simp] theorem storable_str (s : String) : Storable (.str s) := ⟨.str s, Nat.zero_le _⟩

theorem storable_obj {ms : Object} (distinct : (ms.map (·.1)).Nodup)
    (members : ∀ m ∈ ms, m.2.Storable) : Storable (.obj ms) where
  wellFormed := .obj distinct fun m hm => (members m hm).wellFormed
  short := by
    have hms : longestIntMembers ms ≤ maxDigits := by
      clear distinct
      induction ms with
      | nil => exact Nat.zero_le _
      | cons m ms ih =>
        exact Nat.max_le.2 ⟨(members m List.mem_cons_self).short,
          ih fun n hn => members n (List.mem_cons_of_mem m hn)⟩
    exact hms

end Json

namespace Assoc

variable {κ α β : Type} [BEq κ] (f : α → β)

theorem put_mapValues (k : κ) (v : α) (m : Assoc κ α) :
    put k (f v) (mapValues f m) = mapValues f (put k v m) := by
  induction m with
  | nil => rfl
  | cons e m ih =>
    unfold mapValues at ih ⊢
    rw [List.map_cons, put, put, ih]
    split <;> rfl

theorem remove_mapValues (k : κ) (m : Assoc κ α) :
    remove k (mapValues f m) = mapValues f (remove k m) := by
  rw [remove, remove, mapValues, List.filter_map]
  rfl

/-- Values that are turned into others stay under their texts. -/
theorem Texts.mapValues {P : α → Prop} {Q : β → Prop} {m : Assoc Json α} (texts : Texts P m)
    (h : ∀ v, P v → Q (f v)) : Texts Q (Assoc.mapValues f m) where
  regular := by
    refine ⟨?_, List.pairwise_map.2 texts.regular.distinct⟩
    intro e he
    obtain ⟨d, hd, rfl⟩ := List.mem_map.1 he
    exact texts.regular.isKey d hd
  text e he := by
    obtain ⟨d, hd, rfl⟩ := List.mem_map.1 he
    exact texts.text d hd
  value e he := by
    obtain ⟨d, hd, rfl⟩ := List.mem_map.1 he
    exact h d.2 (texts.value d hd)

end Assoc

namespace Fields

/-- Values under texts are the members of the object that they make. -/
theorem ofObject_toObject {P : Json → Prop} {fields : Fields} (texts : Assoc.Texts P fields) :
    ofObject (toObject fields) = fields := by
  rw [ofObject, toObject, List.map_map]
  refine (List.map_congr_left fun e he => ?_).trans (List.map_id fields)
  obtain ⟨s, hs⟩ := texts.text e he
  show (Json.str e.1.keyText, e.2) = e
  rw [hs, Json.keyText, ← hs]

theorem storable_toObject {fields : Fields} (texts : Assoc.Texts Json.Storable fields) :
    (Json.obj (toObject fields)).Storable := by
  have htext (e : Json × Json) (he : e ∈ fields) : e.1 = .str e.1.keyText := by
    obtain ⟨s, hs⟩ := texts.text e he
    rw [hs, Json.keyText]
  refine Json.storable_obj ?_ ?_
  · rw [toObject, List.map_map, List.Nodup, List.pairwise_map]
    refine texts.regular.distinct.imp_of_mem fun {e d} he hd hne hsame => ?_
    -- equal names would be equal keys
    change e.1.keyText = d.1.keyText at hsame
    rw [htext e he, htext d hd, hsame, (Json.isName_str _).self] at hne
    cases hne
  · intro m hm
    obtain ⟨e, he, rfl⟩ := List.mem_map.1 hm
    exact texts.value e he

end Fields

namespace Scopes

/-- Scopes as data: the values of each scope are the members of an object. -/
def asData (scopes : Scopes) : Assoc Json Json :=
  Assoc.mapValues (fun fields => .obj (Fields.toObject fields)) scopes

variable {scopes : Scopes} {P : Json → Prop}

theorem storable_asData (named : scopes.Named Json.Storable) :
    (Json.obj (Fields.toObject scopes.asData)).Storable :=
  Fields.storable_toObject (named.mapValues _ fun _ texts => Fields.storable_toObject texts)

theorem ofObject_asData (named : scopes.Named P) :
    Fields.ofObject (Fields.toObject scopes.asData) = scopes.asData :=
  Fields.ofObject_toObject (P := fun _ => True) (named.mapValues _ fun _ _ => trivial)

end Scopes

namespace Outcome

/-- A traversal that undoes what was done to each item gives the items. -/
theorem mapM_map_of_inverse {ε α β : Type} {f : α → β} {g : β → Except ε α} {xs : List α}
    (h : ∀ x ∈ xs, g (f x) = .ok x) : (xs.map f).mapM g = .ok xs := by
  induction xs with
  | nil => rfl
  | cons x xs ih =>
    rw [List.map_cons, List.mapM_cons, h x List.mem_cons_self, ok_bind,
      ih fun y hy => h y (List.mem_cons_of_mem x hy)]
    rfl

end Outcome

/-- A pointer of texts is what its data describes. -/
theorem Pointer.ofJson_toJson (sectionKey : Json) (position stageKey sessionId : String)
    (status : FlowStatus) :
    ofJson (toJson ⟨sectionKey, .str position, .str stageKey, status, .str sessionId⟩) =
      .ok ⟨sectionKey, .str position, .str stageKey, status, .str sessionId⟩ := by
  have hfilled (s : String) : (Json.str s).filledOr (.str "") = .str s := by
    by_cases h : s = "" <;> simp [Json.filledOr, Json.isFilled, h]
  simp [ofJson, toJson, Json.partOrNull, Json.part, Assoc.valueAt?, FlowStatus.ofJson?_name,
    hfilled]

/-- The values in a call read back from their written form. -/
def Call.Storable : Call → Prop
  | .setFields _ patch => ∀ e ∈ patch, e.2.Storable
  | .deleteFields _ _ => True
  | .savePointer p => p.toJson.Storable ∧ Pointer.ofJson p.toJson = .ok p
  | .deletePointer => True
  | .appendCompletion r => r.toJson.Storable

theorem Call.Storable.writes {call : Call} (storable : call.Storable) :
    call.Writes Json.Storable := by
  cases call with
  | setFields scope patch => exact storable
  | _ => trivial

namespace FileStore

variable {s s' : FileStore} {user : String} {scopes : Scopes} {P : Json → Prop} {a : Account}
  {call : Call}

/-! ## Names of files -/

/-- The names of the files of a user, and of the drafts beside them, are not too long. -/
def Fits (user : String) : Prop := (draftName (dataName user)).utf8ByteSize ≤ Place.maxLength

instance decidableFits (user : String) : Decidable (Fits user) :=
  inferInstanceAs (Decidable (_ ≤ _))

theorem Fits.checkLength_dataName (fits : Fits user) :
    Place.checkLength (dataName user) = .ok () := by
  refine checkLength_eq_ok_iff.2 ?_
  unfold Fits draftName at fits
  rw [String.utf8ByteSize_append] at fits
  omega

theorem Fits.checkLength_linesName (fits : Fits user) :
    Place.checkLength (linesName user) = .ok () := by
  refine checkLength_eq_ok_iff.2 (Nat.le_of_not_lt fun hlong => ?_)
  exact draftName_too_long hlong fits

theorem Fits.exists_writeData (fits : Fits user) (s : FileStore) (folder : String) (data : Json) :
    ∃ s', s.writeData folder user data = .ok s' :=
  ⟨_, writeData_eq_ok_iff.2 ⟨fits, rfl⟩⟩

/-- Paths in different folders are different. -/
theorem inFolder_ne {folder folder' : String} (h : folder ∈ Place.folders)
    (h' : folder' ∈ Place.folders) (hne : folder ≠ folder') (name name' : String) :
    Place.inFolder folder name ≠ Place.inFolder folder' name' := by
  intro heq
  have heads := congrArg (fun path => path.toList.head?) heq
  rw [head?_inFolder h, head?_inFolder h'] at heads
  exact hne (eq_of_head? folder h folder' h' heads)

theorem pointerPath_ne_fieldsPath (user : String) : pointerPath user ≠ fieldsPath user :=
  inFolder_ne (by decide) (by decide) (by decide) _ _

theorem pointerPath_ne_historyPath (user : String) : pointerPath user ≠ historyPath user :=
  inFolder_ne (by decide) (by decide) (by decide) _ _

theorem historyPath_ne_fieldsPath (user : String) : historyPath user ≠ fieldsPath user :=
  inFolder_ne (by decide) (by decide) (by decide) _ _

/-- Data that is written into a folder leaves the other folders as they are. -/
theorem text?_inFolder_of_writeData {folder folder' : String} {data : Json}
    (h : s.writeData folder user data = .ok s') (hmem : folder ∈ Place.folders)
    (hmem' : folder' ∈ Place.folders) (hne : folder' ≠ folder) (name : String) :
    s'.text? (Place.inFolder folder' name) = s.text? (Place.inFolder folder' name) :=
  text?_of_writeData h (inFolder_ne hmem' hmem hne _ _) (inFolder_ne hmem' hmem hne _ _)

/-- Data that is written reads back from its file. -/
theorem dataText?_of_writeData {folder : String} {data : Json} (fits : Fits user)
    (h : s.writeData folder user data = .ok s') :
    s'.dataText? folder user = .ok (some data.writeIndented) := by
  obtain ⟨-, rfl⟩ := writeData_eq_ok_iff.1 h
  rw [dataText?, fits.checkLength_dataName, ok_bind, text?_write, if_pos rfl, pure_eq_ok]

/-! ## Scopes in a file -/

/-- The file of a user holds scopes. -/
def HoldsScopes (s : FileStore) (user : String) (scopes : Scopes) : Prop :=
  s.loadScopes user = .ok (.obj (Fields.toObject scopes.asData))

theorem holdsScopes_of_saveScopes (fits : Fits user) (named : scopes.Named Json.Storable)
    (h : s.saveScopes user scopes.asData = .ok s') : s'.HoldsScopes user scopes := by
  have storable : (Json.obj [("user_id", .str user),
      ("scopes", .obj (Fields.toObject scopes.asData))]).Storable := by
    refine Json.storable_obj (by simp) ?_
    simp only [List.mem_cons, List.not_mem_nil, or_false, forall_eq_or_imp, forall_eq]
    exact ⟨Json.storable_str user, Scopes.storable_asData named⟩
  rw [HoldsScopes, loadScopes, dataText?_of_writeData fits h, ok_bind]
  simp only [storable.read_writeIndented, ok_bind]
  rfl

/-- What the other scopes are laid over, in the file as in the account. -/
theorem overlayScopes_asData (named : ∀ e ∈ scopes, Assoc.Texts P e.2) (scope : Json)
    (acc : Fields) :
    overlayScopes acc ((scopes.asData.filter fun e => !(e.1 == scope)).map (·.2)) =
      .ok (scopes.foldl (fun acc e => if e.1 == scope then acc else Assoc.overlay acc e.2)
        acc) := by
  induction scopes generalizing acc with
  | nil => rfl
  | cons e scopes ih =>
    have hrest := ih fun d hd => named d (List.mem_cons_of_mem e hd)
    unfold Scopes.asData Assoc.mapValues at hrest ⊢
    rw [List.map_cons, List.foldl_cons]
    cases hscope : e.1 == scope with
    | true =>
      rw [List.filter_cons_of_neg (by simp [hscope])]
      exact hrest acc
    | false =>
      rw [List.filter_cons_of_pos (by simp [hscope]), List.map_cons, overlayScopes, Fields.update,
        Json.entries, Fields.ofObject_toObject (named e List.mem_cons_self)]
      exact hrest (Assoc.overlay acc e.2)

theorem own_asData (scopes : Scopes) (scope : Json) :
    (Assoc.valueAt? scope scopes.asData).getD (.obj []) =
      .obj (Fields.toObject (scopes.own scope)) := by
  rw [Scopes.asData, Assoc.valueAt?_mapValues, Scopes.own]
  cases Assoc.valueAt? scope scopes <;> rfl

/-- A scope reads from the file what it reads in the account. -/
theorem HoldsScopes.getFields (holds : s.HoldsScopes user scopes) (named : scopes.Named P)
    (scope : String) : s.getFields user (.str scope) = .ok (scopes.read (.str scope)) := by
  unfold FileStore.getFields namedScopes
  rw [holds, ok_bind, ok_bind, Scopes.ofObject_asData named]
  dsimp only
  rw [overlayScopes_asData named.value, ok_bind, Json.asKey_str, ok_bind, own_asData, Fields.update,
    Json.entries, Fields.ofObject_toObject (named.own (.str scope))]
  rfl

/-- A patch of a scope saves the patched scopes. -/
theorem HoldsScopes.setFields (holds : s.HoldsScopes user scopes) (named : scopes.Named P)
    (scope : String) (patch : Fields) : s.setFields user (.str scope) patch =
      s.saveScopes user (scopes.write (.str scope) patch).asData := by
  unfold FileStore.setFields scopesToPatch
  rw [holds, ok_bind, ok_bind, Scopes.ofObject_asData named, Json.asKey_str, ok_bind, own_asData,
    patched, Fields.ofObject_toObject (named.own (.str scope)), ok_bind, Scopes.asData,
    Assoc.remove_mapValues, Scopes.write, Scopes.asData, Assoc.mapValues, Assoc.mapValues,
    List.map_append]
  rfl

theorem withoutKeys_obj {fields : Fields} (texts : Assoc.Texts P fields) {keys : List Json}
    (hkeys : ∀ k ∈ keys, k.isKey = true) :
    withoutKeys (.obj (Fields.toObject fields)) keys =
      .ok (.obj (Fields.toObject (Fields.discard fields keys).1)) := by
  rw [withoutKeys, Fields.ofObject_toObject texts]
  dsimp only
  rw [Fields.discard_snd hkeys]
  rfl

/-- A removal of keys saves the scopes without them. -/
theorem HoldsScopes.withoutFields (holds : s.HoldsScopes user scopes) (named : scopes.Named P)
    (scope : String) {keys : List Json} (hkeys : ∀ k ∈ keys, k.isKey = true) :
    s.withoutFields user (.str scope) keys =
      s.saveScopes user (scopes.erase (.str scope) keys).1.asData := by
  unfold FileStore.withoutFields namedScopes Scopes.erase
  rw [holds, ok_bind, ok_bind, Scopes.ofObject_asData named, Json.asKey_str, ok_bind,
    Scopes.asData, Assoc.valueAt?_mapValues]
  split
  · next hnone =>
    rw [Option.map_eq_none_iff.1 hnone]
    rfl
  · next v hv =>
    obtain ⟨fields, hfound, rfl⟩ := Option.map_eq_some_iff.1 hv
    obtain ⟨e, he, -, rfl⟩ := Assoc.mem_of_valueAt? hfound
    rw [hfound, withoutKeys_obj (named.value e he) hkeys, ok_bind,
      Assoc.put_mapValues fun fields => Json.obj (Fields.toObject fields)]
    rfl

/-! ## Accounts in files -/

/-- The files of a user hold an account, and everything in it reads back. -/
structure Keeps (s : FileStore) (user : String) (a : Account) : Prop where
  /-- The scopes are under texts, and their values read back. -/
  named : a.scopes.Named Json.Storable
  /-- The completions read back. -/
  storable : ∀ r ∈ a.records, r.toJson.Storable
  /-- The first file holds the scopes. -/
  scopes : s.HoldsScopes user a.scopes
  /-- The second file holds the pointer. -/
  pointer : s.getPointer user = .ok a.pointer?
  /-- The third file holds the completions on lines. -/
  history : (s.text? (historyPath user)).getD "" = Json.linesOf (a.records.map (·.toJson))

theorem keeps_empty (fits : Fits user) : Keeps {} user {} where
  named := .nil
  storable := by simp
  scopes := by
    rw [HoldsScopes, loadScopes, dataText?, fits.checkLength_dataName]
    rfl
  pointer := by
    rw [FileStore.getPointer, dataText?, fits.checkLength_dataName]
    rfl
  history := rfl

namespace Keeps

/-- The files of a user hold the account as long as they stay as they are. -/
theorem congr (keeps : Keeps s user a)
    (hfields : s'.text? (fieldsPath user) = s.text? (fieldsPath user))
    (hpointer : s'.text? (pointerPath user) = s.text? (pointerPath user))
    (hhistory : s'.text? (historyPath user) = s.text? (historyPath user)) : Keeps s' user a where
  named := keeps.named
  storable := keeps.storable
  scopes := (loadScopes_congr hfields).trans keeps.scopes
  pointer := (getPointer_congr hpointer).trans keeps.pointer
  history := by rw [hhistory, keeps.history]

/-- Saved scopes take the place of those in the account. -/
theorem saveScopes (keeps : Keeps s user a) (fits : Fits user)
    (named : scopes.Named Json.Storable) :
    Keeps (kept s (s.saveScopes user scopes.asData)).1 user { a with scopes := scopes } := by
  obtain ⟨s', hs'⟩ := fits.exists_writeData s "fields" (.obj [("user_id", .str user),
    ("scopes", .obj (Fields.toObject scopes.asData))])
  have saved : s.saveScopes user scopes.asData = .ok s' := hs'
  have hpointer : s'.text? (pointerPath user) = s.text? (pointerPath user) :=
    text?_inFolder_of_writeData hs' (by decide) (by decide) (by decide) _
  have hhistory : s'.text? (historyPath user) = s.text? (historyPath user) :=
    text?_inFolder_of_writeData hs' (by decide) (by decide) (by decide) _
  rw [saved]
  exact
    { named := named
      storable := keeps.storable
      scopes := holdsScopes_of_saveScopes fits named saved
      pointer := (getPointer_congr hpointer).trans keeps.pointer
      history := by
        show (s'.text? _).getD "" = _
        rw [hhistory, keeps.history] }

/-- A saved pointer takes the place of the one in the account. -/
theorem savePointer (keeps : Keeps s user a) (fits : Fits user) {p : Pointer}
    (storable : p.toJson.Storable) (hp : Pointer.ofJson p.toJson = .ok p) :
    Keeps (kept s (s.savePointer user p)).1 user { a with pointer? := some p } := by
  obtain ⟨s', hs'⟩ := fits.exists_writeData s "pointers" p.toJson
  have saved : s.savePointer user p = .ok s' := hs'
  have hfields : s'.text? (fieldsPath user) = s.text? (fieldsPath user) :=
    text?_inFolder_of_writeData hs' (by decide) (by decide) (by decide) _
  have hhistory : s'.text? (historyPath user) = s.text? (historyPath user) :=
    text?_inFolder_of_writeData hs' (by decide) (by decide) (by decide) _
  rw [saved]
  exact
    { named := keeps.named
      storable := keeps.storable
      scopes := (loadScopes_congr hfields).trans keeps.scopes
      pointer := by
        show s'.getPointer user = _
        rw [FileStore.getPointer, dataText?_of_writeData fits hs', ok_bind]
        simp only [storable.read_writeIndented, ok_bind, hp, pure_eq_ok]
      history := by
        show (s'.text? _).getD "" = _
        rw [hhistory, keeps.history] }

theorem deletePointer (keeps : Keeps s user a) (fits : Fits user) :
    Keeps (kept s (s.deletePointer user)).1 user { a with pointer? := none } := by
  have deleted : s.deletePointer user = .ok (s.remove (pointerPath user)) := by
    rw [FileStore.deletePointer, fits.checkLength_dataName]
    rfl
  have others {path : String} (h : pointerPath user ≠ path) :
      (s.remove (pointerPath user)).text? path = s.text? path := by
    rw [text?_remove, if_neg h]
  rw [deleted]
  exact
    { named := keeps.named
      storable := keeps.storable
      scopes := (loadScopes_congr (others (pointerPath_ne_fieldsPath user))).trans keeps.scopes
      pointer := by
        show (s.remove (pointerPath user)).getPointer user = _
        rw [FileStore.getPointer, dataText?, fits.checkLength_dataName, ok_bind, pure_eq_ok,
          ← pointerPath, text?_remove, if_pos rfl]
        rfl
      history := by
        show ((s.remove (pointerPath user)).text? (historyPath user)).getD "" = _
        rw [others (pointerPath_ne_historyPath user), keeps.history] }

/-- A completion is written on a line of its own behind the others. -/
theorem appendCompletion (keeps : Keeps s user a) (fits : Fits user) {r : CompletionRecord}
    (storable : r.toJson.Storable) :
    Keeps (kept s (s.appendCompletion user r)).1 user { a with records := a.records ++ [r] } := by
  have appended : s.appendCompletion user r = .ok (s.write (historyPath user)
      ((s.text? (historyPath user)).getD "" ++ r.toJson.write ++ "\n")) := by
    rw [FileStore.appendCompletion, fits.checkLength_linesName]
    rfl
  have others {path : String} (h : historyPath user ≠ path) (text : String) :
      (s.write (historyPath user) text).text? path = s.text? path := by
    rw [text?_write, if_neg h]
  rw [appended]
  exact
    { named := keeps.named
      storable := by
        intro r' hr'
        rcases List.mem_append.1 hr' with hr' | hr'
        · exact keeps.storable r' hr'
        · rw [List.mem_singleton.1 hr']
          exact storable
      scopes := (loadScopes_congr (others (historyPath_ne_fieldsPath user) _)).trans keeps.scopes
      pointer := (getPointer_congr (others (pointerPath_ne_historyPath user).symm _)).trans
        keeps.pointer
      history := by
        show ((s.write _ _).text? (historyPath user)).getD "" = _
        rw [text?_write, if_pos rfl, Option.getD_some, keeps.history, List.map_append,
          List.map_singleton, Json.linesOf_concat] }

/-- The files after a call hold the account after it. -/
theorem perform (keeps : Keeps s user a) (fits : Fits user) (named : call.Named)
    (storable : call.Storable) : Keeps (perform s user call).1 user (a.after call) := by
  have hnamed := Account.named_after named storable.writes keeps.named
  cases named with
  | @setFields scope patch distinct =>
    show Keeps (kept s (s.setFields user (.str scope) (Fields.ofObject patch))).1 user _
    rw [keeps.scopes.setFields keeps.named]
    exact keeps.saveScopes fits hnamed
  | deleteFields scope keys =>
    have hkeys : ∀ k ∈ keys.map Json.str, k.isKey = true := by simp [Json.isKey]
    have hsame : (s.deleteFields user (.str scope) (keys.map .str)).1 =
        (kept s (s.withoutFields user (.str scope) (keys.map .str))).1 := by
      unfold FileStore.deleteFields
      cases s.withoutFields user (.str scope) (keys.map .str) <;> rfl
    show Keeps (s.deleteFields user (.str scope) (keys.map .str)).1 user _
    rw [hsame, keeps.scopes.withoutFields keeps.named scope hkeys]
    exact keeps.saveScopes fits hnamed
  | savePointer p => exact keeps.savePointer fits storable.1 storable.2
  | deletePointer => exact keeps.deletePointer fits
  | appendCompletion r => exact keeps.appendCompletion fits storable

/-- A call for another user with another name in paths leaves the files as they are. -/
theorem perform_of_safeName_ne {other : String} (keeps : Keeps s user a)
    (hne : safeName other ≠ safeName user) (call : Call) :
    Keeps (Store.perform s other call).1 user a :=
  keeps.congr (text?_perform s other call (dataPath_notMem (by decide) hne))
    (text?_perform s other call (dataPath_notMem (by decide) hne))
    (text?_perform s other call (historyPath_notMem hne))

/-- The lines of the third file are the completions. -/
theorem recordLines (keeps : Keeps s user a) :
    FileStore.recordLines ((s.text? (historyPath user)).getD "") =
      a.records.map fun r => r.toJson.write := by
  rw [keeps.history, FileStore.recordLines, Json.splitTrimmed_linesOf rfl, List.map_map]
  · rfl
  · intro c hc
    rw [Bool.or_eq_false_iff, beq_eq_false_iff_ne, beq_eq_false_iff_ne]
    constructor <;> (rintro rfl; exact absurd hc (by decide))
  · intro v hv
    obtain ⟨r, hr, rfl⟩ := List.mem_map.1 hv
    exact (keeps.storable r hr).wellFormed
  · intro v hv
    obtain ⟨r, -, rfl⟩ := List.mem_map.1 hv
    exact ⟨_, rfl⟩

/-- The account in the files is read as it is. -/
theorem shownBy (keeps : Keeps s user a) (fits : Fits user) : a.ShownBy s user where
  fields scope := keeps.scopes.getFields keeps.named scope
  pointer := keeps.pointer
  completions := by
    show s.completions user = .ok a.records
    have read : (a.records.map fun r => r.toJson.write).mapM (fun line => do
        let data ← Json.require line
        CompletionRecord.ofJson data) = .ok a.records := by
      refine mapM_map_of_inverse fun r hr => ?_
      rw [(keeps.storable r hr).read_write, ok_bind, CompletionRecord.ofJson_toJson]
    have lines := keeps.recordLines
    rw [FileStore.completions, fits.checkLength_linesName, ok_bind]
    cases htext : s.text? (historyPath user) with
    | none =>
      -- without a file there are no lines
      rw [htext] at lines
      have hnil : a.records = [] := List.map_eq_nil_iff.1 lines.symm
      rw [hnil]
      rfl
    | some text =>
      rw [htext, Option.getD_some] at lines
      dsimp only
      rw [lines, read]

end Keeps

end FileStore

end Questionnaire
