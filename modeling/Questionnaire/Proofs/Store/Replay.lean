import Questionnaire.Proofs.Store.Encoding

/-!
# Replaying a log

Both stores are told by the log of all calls: what is read for a user, in memory or from files, is
what the calls for this user say.

## Main Definitions

* `MemoryStore.account` - the account of a user in memory
* `FileStore.Suits` - what a log has to be like for files to keep what it says of a user

## Main Statements

* `MemoryStore.account_play` - the account in memory after a log
* `FileStore.keeps_play` - the account in files after a log
* `Log.toldBy_play` - both stores are told by the log
-/

namespace Questionnaire

open Store

variable {log : List (String × Call)} {user : String} {call : Call}

/-! ## In memory -/

namespace MemoryStore

/-- What is kept of a user in memory. -/
def account (m : MemoryStore) (user : String) : Account :=
  ⟨m.scopes user, m.pointer? user, m.records user⟩

theorem account_patched (m : MemoryStore) (user : String) (scope : Json) (patch : Fields) :
    (m.patched user scope patch).account user =
      (m.account user).after (.setFields scope patch) := by
  rw [account, scopes_patched_self, pointer?_patched, records_patched]
  rfl

theorem account_savePointer (m : MemoryStore) (user : String) (p : Pointer) :
    (m.savePointer user p).account user = (m.account user).after (.savePointer p) := by
  rw [account, scopes_savePointer, pointer?_savePointer_self, records_savePointer]
  rfl

theorem account_deletePointer (m : MemoryStore) (user : String) :
    (m.deletePointer user).account user = (m.account user).after .deletePointer := by
  rw [account, scopes_deletePointer, pointer?_deletePointer_self, records_deletePointer]
  rfl

theorem account_appendCompletion (m : MemoryStore) (user : String) (r : CompletionRecord) :
    (m.appendCompletion user r).account user = (m.account user).after (.appendCompletion r) := by
  rw [account, scopes_appendCompletion, pointer?_appendCompletion, records_appendCompletion_self]
  rfl

theorem account_deleteFields (m : MemoryStore) (user scope : String) (keys : List Json) :
    (m.deleteFields user (.str scope) keys).1.account user =
      (m.account user).after (.deleteFields (.str scope) keys) := by
  unfold MemoryStore.deleteFields
  rw [Json.asKey_str]
  dsimp only
  split
  · next hnone =>
    -- a user without scopes has none to remove keys from
    rw [Account.after, account, MemoryStore.scopes, hnone]
    rfl
  · next scopes hfound =>
    rw [Account.after, account, account, MemoryStore.scopes, MemoryStore.scopes, hfound,
      Assoc.valueAt?_put (Assoc.isName_of_lawful user), if_pos (beq_self_eq_true user)]
    rfl

/-- A call for a user changes the account of this user as it should. -/
theorem account_perform (named : call.Named) (m : MemoryStore) (user : String) :
    (perform m user call).1.account user = (m.account user).after call := by
  cases named with
  | setFields scope distinct => exact account_patched m user (.str scope) _
  | deleteFields scope keys => exact account_deleteFields m user scope _
  | savePointer p => exact account_savePointer m user p
  | deletePointer => exact account_deletePointer m user
  | appendCompletion r => exact account_appendCompletion m user r

/-- A call for another user leaves the account as it is. -/
theorem account_perform_of_ne {other : String} (hne : other ≠ user) (m : MemoryStore)
    (call : Call) : (perform m other call).1.account user = m.account user := by
  have elsewhere := elsewhere_perform m other call
  rw [account, elsewhere.scopes user hne.symm, elsewhere.pointer user hne.symm,
    elsewhere.records user hne.symm, account]

/-- After a log the account of a user is what the calls for this user make of an empty one. -/
theorem account_play (named : ∀ call ∈ Log.callsFor user log, call.Named) :
    (play ({} : MemoryStore) log).account user =
      (Log.callsFor user log).foldl Account.after {} := by
  induction log using List.reverseRecOn with
  | nil => rfl
  | append_singleton log e ih =>
    rw [Log.callsFor_concat] at named ⊢
    rw [play_concat]
    by_cases hsame : e.1 = user
    · rw [if_pos hsame] at named ⊢
      rw [hsame, account_perform (named e.2 (by simp)), List.foldl_append,
        ih fun call hcall => named call (List.mem_append_left _ hcall)]
      rfl
    · rw [if_neg hsame] at named ⊢
      rw [account_perform_of_ne hsame, ih named]

theorem shownBy_account (m : MemoryStore) (user : String) : (m.account user).ShownBy m user where
  fields _ := getFields_of_isKey rfl m user
  pointer := rfl
  completions := rfl

end MemoryStore

/-! ## In files -/

namespace FileStore

/-- What a log has to be like for files to keep what it says of a user. -/
structure Suits (log : List (String × Call)) (user : String) : Prop where
  /-- The file system takes the names of the files of the user. -/
  fits : Fits user
  /-- No other user has files of these names. -/
  apart : ∀ e ∈ log, safeName e.1 = safeName user → e.1 = user
  /-- What is kept of the user reads back from its written form. -/
  storable : ∀ call ∈ Log.callsFor user log, call.Storable

/-- After a log the files of a user hold what the calls for this user make of an empty account. -/
theorem keeps_play (suits : Suits log user)
    (named : ∀ call ∈ Log.callsFor user log, call.Named) :
    Keeps (play {} log) user ((Log.callsFor user log).foldl Account.after {}) := by
  obtain ⟨fits, apart, storable⟩ := suits
  induction log using List.reverseRecOn with
  | nil => exact keeps_empty fits
  | append_singleton log e ih =>
    rw [Log.callsFor_concat] at named storable ⊢
    have apart' : ∀ d ∈ log, safeName d.1 = safeName user → d.1 = user :=
      fun d hd => apart d (List.mem_append_left _ hd)
    rw [play_concat]
    by_cases hsame : e.1 = user
    · rw [if_pos hsame] at named storable ⊢
      have keeps := ih (fun call hcall => named call (List.mem_append_left _ hcall)) apart'
        fun call hcall => storable call (List.mem_append_left _ hcall)
      rw [hsame, List.foldl_append]
      exact keeps.perform fits (named e.2 (by simp)) (storable e.2 (by simp))
    · rw [if_neg hsame] at named storable ⊢
      have hne : safeName e.1 ≠ safeName user := fun h => hsame (apart e (by simp) h)
      exact (ih named apart' storable).perform_of_safeName_ne hne e.2

end FileStore

/-! ## Both stores -/

namespace Log

/-- What is read for a user is what the calls for this user say: in memory always, and in files as
long as the user has files of their own in which everything reads back. -/
theorem toldBy_play (named : ∀ call ∈ callsFor user log, call.Named) :
    ToldBy (callsFor user log) (play ({} : MemoryStore) log) user ∧
      (FileStore.Suits log user →
        ToldBy (callsFor user log) (play ({} : FileStore) log) user) := by
  have told := Account.toldBy_foldl named
  have texts := Account.named_foldl (P := fun _ => True) named fun call _ => by
    cases call <;> simp [Call.Writes]
  constructor
  · have shown := MemoryStore.shownBy_account (play ({} : MemoryStore) log) user
    rw [MemoryStore.account_play named] at shown
    exact shown.toldBy told texts
  · intro suits
    exact ((FileStore.keeps_play suits named).shownBy suits.fits).toldBy told texts

/-- Two users whose calls take turns; the last scope that was patched holds no name any more. -/
def sampleLog : List (String × Call) :=
  [("u1", .setFields (.str "01") (Fields.ofObject [("name", .str "Ann"), ("age", .int 30)])),
    ("u2", .setFields (.str "01") (Fields.ofObject [("name", .str "Eve")])),
    ("u1", .setFields (.str "02") (Fields.ofObject [("name", .str "Bob"), ("age", .null)])),
    ("u1", .deleteFields (.str "02") (["name"].map .str)),
    ("u1", .savePointer ⟨.str "02", .str "Q1", .str "s", .active, .str "00000001"⟩),
    ("u2", .deletePointer),
    ("u1", .appendCompletion ⟨.str "01", .str "main", .str "00000001", .str "2000-01-01"⟩)]

theorem callsFor_sampleLog : callsFor "u1" sampleLog =
    [.setFields (.str "01") (Fields.ofObject [("name", .str "Ann"), ("age", .int 30)]),
      .setFields (.str "02") (Fields.ofObject [("name", .str "Bob"), ("age", .null)]),
      .deleteFields (.str "02") (["name"].map .str),
      .savePointer ⟨.str "02", .str "Q1", .str "s", .active, .str "00000001"⟩,
      .appendCompletion ⟨.str "01", .str "main", .str "00000001", .str "2000-01-01"⟩] := by
  simp [callsFor, sampleLog]

theorem named_sampleLog : ∀ call ∈ callsFor "u1" sampleLog, call.Named := by
  rw [callsFor_sampleLog]
  simp only [List.mem_cons, List.not_mem_nil, or_false, forall_eq_or_imp, forall_eq]
  exact ⟨.setFields "01" (by decide), .setFields "02" (by decide), .deleteFields "02" _,
    .savePointer _, .appendCompletion _⟩

theorem suits_sampleLog : FileStore.Suits sampleLog "u1" where
  fits := by decide +kernel
  apart := by decide +kernel
  storable := by
    have number : (Json.int 30).Storable := ⟨.int 30, by decide⟩
    rw [callsFor_sampleLog]
    simp only [List.mem_cons, List.not_mem_nil, or_false, forall_eq_or_imp, forall_eq]
    refine ⟨?_, ?_, trivial, ⟨?_, Pointer.ofJson_toJson _ _ _ _ _⟩, ?_⟩
    · simp [Call.Storable, Fields.ofObject, number]
    · simp [Call.Storable, Fields.ofObject]
    · exact Json.storable_obj (by decide) (by simp)
    · exact Json.storable_obj (by decide) (by simp)

/-- Both stores are told by the sample, and the second scope sees the name of the first one. -/
theorem toldBy_play_sampleLog :
    ToldBy (callsFor "u1" sampleLog) (play ({} : MemoryStore) sampleLog) "u1" ∧
      ToldBy (callsFor "u1" sampleLog) (play ({} : FileStore) sampleLog) "u1" ∧
      sees? (callsFor "u1" sampleLog) (.str "02") (.str "name") = some (.str "Ann") := by
  obtain ⟨memory, files⟩ := toldBy_play named_sampleLog
  refine ⟨memory, files suits_sampleLog, ?_⟩
  rw [callsFor_sampleLog]
  rfl

end Log

end Questionnaire
