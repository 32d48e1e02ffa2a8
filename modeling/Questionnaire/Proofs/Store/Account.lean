import Questionnaire.Proofs.Store.Log

/-!
# The account of one user

What is kept of one user is changed by the calls for this user alone, one after the other.  It
stands between what a log of calls says and what a store keeps: the account after some calls is what
they say, and a store need only keep the account.

## Main Definitions

* `Assoc.Texts` - values of a kind under distinct texts
* `Account`, `Account.after` - what is kept of one user, before and after a call
* `Account.ToldBy` - an account is what calls say
* `Account.ShownBy` - a store shows an account

## Main Statements

* `Account.toldBy_foldl` - the account after some calls is what they say
* `Account.ShownBy.toldBy` - a store that shows the account shows what the calls say
-/

namespace Questionnaire

/-! ## Values under texts -/

namespace Assoc

variable {α : Type}

/-- A write under a key that is present leaves the keys as they are. -/
theorem keyList_put_of_found {κ : Type} [BEq κ] {k : κ} {v w : α} {m : Assoc κ α}
    (h : valueAt? k m = some w) : keyList (put k v m) = keyList m := by
  induction m with
  | nil => cases h
  | cons e m ih =>
    rw [valueAt?_cons] at h
    unfold keyList at ih ⊢
    by_cases he : (e.1 == k) = true
    · rw [put, if_pos he]
      rfl
    · rw [if_neg he] at h
      rw [put, if_neg he, List.map_cons, List.map_cons, ih h]

/-- Values of a kind under distinct texts. -/
structure Texts (P : α → Prop) (m : Assoc Json α) : Prop where
  /-- The keys are distinct. -/
  regular : Regular m
  /-- The keys are texts. -/
  text : ∀ e ∈ m, ∃ s, e.1 = .str s
  /-- The values are of the kind. -/
  value : ∀ e ∈ m, P e.2

namespace Texts

variable {P : α → Prop} {m base : Assoc Json α} {v : α}

theorem nil : Texts P ([] : Assoc Json α) := ⟨.nil, by simp, by simp⟩

theorem filter (texts : Texts P m) (p : Json × α → Bool) : Texts P (m.filter p) where
  regular := texts.regular.filter p
  text e he := texts.text e (List.mem_filter.1 he).1
  value e he := texts.value e (List.mem_filter.1 he).1

theorem put (texts : Texts P m) (s : String) (hv : P v) : Texts P (Assoc.put (.str s) v m) where
  regular := texts.regular.put rfl v
  text e he := by
    rcases mem_put_or_key he with ⟨d, hd, hkey⟩ | hkey
    · rw [← hkey]
      exact texts.text d hd
    · exact ⟨s, hkey⟩
  value e he := by
    rcases mem_put_or he with he | hvalue
    · exact texts.value e he
    · rw [hvalue]
      exact hv

theorem overlay (hbase : Texts P base) (texts : Texts P m) : Texts P (Assoc.overlay base m) where
  regular := hbase.regular.overlay texts.regular.isKey
  text e he := by
    rcases mem_overlay_or_key he with ⟨d, hd, hkey⟩ | ⟨d, hd, hkey⟩ <;> rw [← hkey]
    · exact hbase.text d hd
    · exact texts.text d hd
  value := mem_overlay_value hbase.value texts.value

/-- An entry that is written anew at the end. -/
theorem moved (texts : Texts P m) (s : String) (hv : P v) :
    Texts P (remove (.str s) m ++ [(.str s, v)]) where
  regular := by
    have rest := texts.regular.filter fun e => !(e.1 == Json.str s)
    refine ⟨?_, List.pairwise_append.2 ⟨rest.distinct, List.pairwise_singleton _ _, ?_⟩⟩
    · intro e he
      rcases List.mem_append.1 he with he | he
      · exact rest.isKey e he
      · rw [List.mem_singleton.1 he]
        rfl
    · intro e he d hd
      rw [List.mem_singleton.1 hd]
      simpa using (List.mem_filter.1 he).2
  text e he := by
    rcases List.mem_append.1 he with he | he
    · exact texts.text e (List.mem_filter.1 he).1
    · rw [List.mem_singleton.1 he]
      exact ⟨s, rfl⟩
  value e he := by
    rcases List.mem_append.1 he with he | he
    · exact texts.value e (List.mem_filter.1 he).1
    · rw [List.mem_singleton.1 he]
      exact hv

end Texts

end Assoc

namespace Fields

/-- The members of an object with distinct names are values under distinct texts. -/
theorem texts_ofObject {P : Json → Prop} {ms : Object} (distinct : (ms.map (·.1)).Nodup)
    (values : ∀ e ∈ ofObject ms, P e.2) : Assoc.Texts P (ofObject ms) where
  regular := by
    refine ⟨?_, ?_⟩
    · intro e he
      obtain ⟨m, -, rfl⟩ := List.mem_map.1 he
      rfl
    · refine List.pairwise_map.2 ((List.pairwise_map.1 distinct).imp fun hne => ?_)
      simpa using hne
  text e he := by
    obtain ⟨m, -, rfl⟩ := List.mem_map.1 he
    exact ⟨m.1, rfl⟩
  value := values

variable {keys : List Json}

/-- Scalars are removed without failure. -/
theorem discard_snd (hkeys : ∀ k ∈ keys, k.isKey = true) (fields : Fields) :
    (discard fields keys).2 = .ok () := by
  induction keys generalizing fields with
  | nil => rw [discard]
  | cons k keys ih =>
    cases fields with
    | nil => rfl
    | cons e fields =>
      rw [discard, (Json.asKey_eq_ok_iff k k).2 ⟨hkeys k List.mem_cons_self, rfl⟩]
      exact ih (fun k' hk' => hkeys k' (List.mem_cons_of_mem k hk')) _

/-- What is left is what is not removed. -/
theorem valueAt?_discard (hkeys : ∀ k ∈ keys, k.isKey = true) (fields : Fields) (key : Json) :
    Assoc.valueAt? key (discard fields keys).1 =
      if keys.any (· == key) then none else Assoc.valueAt? key fields := by
  induction keys generalizing fields with
  | nil =>
    rw [discard]
    rfl
  | cons k keys ih =>
    cases fields with
    | nil => rw [discard, Assoc.valueAt?_nil, ite_self]
    | cons e fields =>
      have hk := hkeys k List.mem_cons_self
      rw [discard, (Json.asKey_eq_ok_iff k k).2 ⟨hk, rfl⟩]
      show Assoc.valueAt? key (discard (Assoc.remove k (e :: fields)) keys).1 = _
      rw [ih fun k' hk' => hkeys k' (List.mem_cons_of_mem k hk'),
        Assoc.valueAt?_remove (Json.isName_of_isKey hk), List.any_cons]
      cases k == key <;> simp

theorem texts_discard {P : Json → Prop} {fields : Fields} (texts : Assoc.Texts P fields) :
    Assoc.Texts P (discard fields keys).1 := by
  induction keys generalizing fields with
  | nil =>
    rw [discard]
    exact texts
  | cons k keys ih =>
    cases fields with
    | nil => exact .nil
    | cons e fields =>
      rw [discard]
      split
      · exact texts
      · exact ih (texts.filter _)

end Fields

/-! ## Scopes under texts -/

namespace Scopes

/-- Scopes under texts, and in them values of a kind under texts. -/
abbrev Named (P : Json → Prop) (scopes : Scopes) : Prop := Assoc.Texts (Assoc.Texts P) scopes

variable {P : Json → Prop} {scopes : Scopes} {calls : List Call}

namespace Named

theorem own (named : Named P scopes) (scope : Json) : Assoc.Texts P (scopes.own scope) :=
  mem_own scope .nil fun e he _ => named.value e he

theorem write (named : Named P scopes) (scope : String) {patch : Fields}
    (texts : Assoc.Texts P patch) : Named P (scopes.write (.str scope) patch) :=
  Assoc.Texts.moved named scope ((named.own (.str scope)).overlay (texts.filter _))

theorem erase (named : Named P scopes) (scope : String) (keys : List Json) :
    Named P (scopes.erase (.str scope) keys).1 := by
  unfold Scopes.erase
  split
  · exact named
  · next fields hfound =>
    obtain ⟨e, he, -, rfl⟩ := Assoc.mem_of_valueAt? hfound
    exact Assoc.Texts.put named scope (Fields.texts_discard (named.value e he))

end Named

/-- Scopes hold what calls say, and they stand in the order in which they were patched last. -/
structure ToldBy (calls : List Call) (scopes : Scopes) : Prop where
  /-- What a scope holds itself. -/
  own : ∀ (scope : String) (key : Json),
    Assoc.valueAt? key (scopes.own (.str scope)) = Log.holds? calls (.str scope) key
  /-- Whatever is asked of scopes, the one that was patched last answers first. -/
  order : ∀ f : Json → Option Json, (scopes.reverse.findSome? fun e => f e.1) =
    calls.reverse.findSome? fun call => call.patchedScope?.bind f

theorem findSome?_congr {α β : Type} {f g : α → Option β} {xs : List α} (h : ∀ x ∈ xs, f x = g x) :
    xs.findSome? f = xs.findSome? g := by
  rw [← List.head?_filterMap, ← List.head?_filterMap, List.filterMap_congr h]

namespace ToldBy

/-- A scope reads what the calls say. -/
theorem read (told : ToldBy calls scopes) (named : Named P scopes) (scope : String) (key : Json) :
    Assoc.valueAt? key (scopes.read (.str scope)) = Log.sees? calls (.str scope) key := by
  have regular : scopes.Regular := fun e he => (named.value e he).regular
  have hbehind : Assoc.valueAt? key (scopes.behind (.str scope)) =
      Log.behind? calls (.str scope) key := by
    rw [regular.valueAt?_behind, Log.behind?, ← told.order]
    refine findSome?_congr fun e he => ?_
    have hmem := List.mem_reverse.1 he
    obtain ⟨s, hs⟩ := named.text e hmem
    have hown : scopes.own e.1 = e.2 := by
      rw [Scopes.own, named.regular.valueAt?_of_mem hmem, Option.getD_some]
    rw [← hown, hs, told.own s key]
  rw [regular.valueAt?_read, told.own, hbehind, Log.sees?]

/-- After a patch the scope holds what was written, and it stands last. -/
theorem write (told : ToldBy calls scopes) (scope : String) {patch : Fields}
    (regular : Assoc.Regular patch) :
    ToldBy (calls ++ [.setFields (.str scope) patch]) (scopes.write (.str scope) patch) where
  own other key := by
    rw [Log.holds?, Log.latest?_concat, ← Log.holds?, Call.saysOfValue?]
    by_cases hsame : scope = other
    · rw [hsame, valueAt?_own_write rfl scopes regular, told.own, if_pos (Json.isName_str _).self]
      cases (Assoc.valueAt? key patch).filter isWritten <;> rfl
    · have hne : (Json.str scope == .str other) = false := by simpa using hsame
      rw [Scopes.own, valueAt?_write (Json.isName_str scope), hne, if_neg Bool.false_ne_true,
        if_neg Bool.false_ne_true, ← Scopes.own, told.own]
      rfl
  order f := by
    rw [Log.findSome?_patchedScope?_concat, ← told.order f]
    unfold Scopes.write Assoc.remove
    rw [List.reverse_append, List.findSome?_append, List.reverse_singleton,
      List.findSome?_singleton]
    show (f (.str scope)).or _ = (f (.str scope)).or _
    cases hf : f (.str scope) with
    | some v => rfl
    | none =>
      -- the entry that moved does not answer
      rw [← List.filter_reverse, ← List.head?_filterMap, List.filterMap_filter,
        List.head?_filterMap, Option.none_or, Option.none_or]
      refine findSome?_congr fun e _ => ?_
      cases hscope : e.1 == Json.str scope with
      | false => rfl
      | true => rw [(Json.beq_str e.1 scope).1 hscope, hf]; rfl

/-- After a removal the scope holds what was not removed, and it stays where it is. -/
theorem erase (told : ToldBy calls scopes) (scope : String) {keys : List Json}
    (hkeys : ∀ k ∈ keys, k.isKey = true) :
    ToldBy (calls ++ [.deleteFields (.str scope) keys]) (scopes.erase (.str scope) keys).1 where
  own other key := by
    rw [Log.holds?, Log.latest?_concat, ← Log.holds?, Call.saysOfValue?, ← told.own other]
    unfold Scopes.erase
    split
    · next hnone =>
      -- there is nothing to remove
      by_cases hsame : scope = other
      · rw [← hsame, Scopes.own, hnone, Option.getD_none, Assoc.valueAt?_nil]
        split <;> rfl
      · have hne : (Json.str scope == .str other) = false := by simpa using hsame
        rw [hne]
        rfl
    · next fields hfound =>
      show Assoc.valueAt? key (Scopes.own (Assoc.put _ _ scopes) _) = _
      rw [Scopes.own, Assoc.valueAt?_put (Json.isName_str scope)]
      by_cases hsame : scope = other
      · rw [← hsame, if_pos (Json.isName_str scope).self, Option.getD_some,
          Fields.valueAt?_discard hkeys, Scopes.own, hfound, Option.getD_some,
          (Json.isName_str scope).self, Bool.true_and]
        split <;> rfl
      · have hne : (Json.str scope == .str other) = false := by simpa using hsame
        rw [hne, if_neg Bool.false_ne_true, Bool.false_and, if_neg Bool.false_ne_true]
        rfl
  order f := by
    rw [Log.findSome?_patchedScope?_concat, ← told.order f]
    show _ = none.or _
    rw [Option.none_or]
    unfold Scopes.erase
    split
    · rfl
    · next fields hfound =>
      have keyList (scopes : Scopes) : (scopes.reverse.findSome? fun e => f e.1) =
          (Assoc.keyList scopes).reverse.findSome? f := by
        rw [Assoc.keyList, ← List.map_reverse, List.findSome?_map]
        rfl
      rw [keyList, keyList, Assoc.keyList_put_of_found hfound]

/-- A call that neither patches a scope nor removes keys from one changes nothing. -/
theorem concat (told : ToldBy calls scopes) {call : Call}
    (hvalue : ∀ scope key, call.saysOfValue? scope key = none)
    (hscope : call.patchedScope? = none) : ToldBy (calls ++ [call]) scopes where
  own scope key := by
    rw [Log.holds?, Log.latest?_concat, hvalue, Option.getD_none, ← Log.holds?, told.own]
  order f := by
    rw [Log.findSome?_patchedScope?_concat, hscope, Option.bind_none, Option.none_or, told.order f]

end ToldBy

end Scopes

/-! ## Accounts -/

/-- What is kept of one user. -/
structure Account where
  /-- The values in scopes. -/
  scopes : Scopes := []
  /-- The pointer. -/
  pointer? : Option Pointer := none
  /-- The completions in order. -/
  records : List CompletionRecord := []

namespace Call

/-- The values that a call writes into scopes are of a kind. -/
def Writes (P : Json → Prop) : Call → Prop
  | .setFields _ patch => ∀ e ∈ patch, P e.2
  | _ => True

end Call

namespace Account

/-- The account after a call. -/
def after (a : Account) : Call → Account
  | .setFields scope patch => { a with scopes := a.scopes.write scope patch }
  | .deleteFields scope keys => { a with scopes := (a.scopes.erase scope keys).1 }
  | .savePointer p => { a with pointer? := some p }
  | .deletePointer => { a with pointer? := none }
  | .appendCompletion r => { a with records := a.records ++ [r] }

/-- Everything in an account is what calls say. -/
structure ToldBy (calls : List Call) (a : Account) : Prop where
  /-- The scopes hold what the calls say. -/
  scopes : a.scopes.ToldBy calls
  /-- The pointer is the last one. -/
  pointer : a.pointer? = Log.lastPointer? calls
  /-- The completions are in order. -/
  records : a.records = Log.completions calls

/-- Everything in an account is read for a user. -/
structure ShownBy {σ : Type} [Store σ] (s : σ) (user : String) (a : Account) : Prop where
  /-- Every scope reads what it reads in the account. -/
  fields : ∀ scope : String,
    Store.getFields s user (.str scope) = .ok (a.scopes.read (.str scope))
  /-- The pointer is that of the account. -/
  pointer : Store.getPointer s user = .ok a.pointer?
  /-- The completions are those of the account. -/
  completions : Store.completions s user = .ok a.records

variable {P : Json → Prop} {a : Account} {call : Call} {calls : List Call}

theorem named_after (named : call.Named) (writes : call.Writes P) (h : a.scopes.Named P) :
    (a.after call).scopes.Named P := by
  cases named with
  | setFields scope distinct => exact h.write scope (Fields.texts_ofObject distinct writes)
  | deleteFields scope keys => exact h.erase scope _
  | _ => exact h

theorem pointer?_after (a : Account) (call : Call) :
    (a.after call).pointer? = call.saysOfPointer?.getD a.pointer? := by
  cases call <;> rfl

theorem records_after (a : Account) (call : Call) :
    (a.after call).records = a.records ++ call.completion?.toList := by
  cases call <;> simp [after, Call.completion?]

theorem scopes_after (h : a.scopes.ToldBy calls) (named : call.Named) :
    (a.after call).scopes.ToldBy (calls ++ [call]) := by
  cases named with
  | @setFields scope patch distinct =>
    have texts := Fields.texts_ofObject (P := fun _ => True) distinct fun _ _ => trivial
    exact h.write scope texts.regular
  | deleteFields scope keys =>
    have hkeys : ∀ k ∈ keys.map Json.str, k.isKey = true := by simp [Json.isKey]
    exact h.erase scope hkeys
  | _ => exact h.concat (fun _ _ => rfl) rfl

/-- After a call the account is what the calls say together with this one. -/
theorem ToldBy.after (told : ToldBy calls a) (named : call.Named) :
    ToldBy (calls ++ [call]) (a.after call) where
  scopes := scopes_after told.scopes named
  pointer := by
    rw [pointer?_after, told.pointer, Log.lastPointer?, Log.lastPointer?, Log.latest?_concat]
  records := by rw [records_after, told.records, Log.completions_concat]

/-- The account after some calls is what they say. -/
theorem toldBy_foldl (named : ∀ call ∈ calls, call.Named) :
    ToldBy calls (calls.foldl after {}) := by
  induction calls using List.reverseRecOn with
  | nil => exact ⟨⟨fun _ _ => rfl, fun _ => rfl⟩, rfl, rfl⟩
  | append_singleton calls call ih =>
    rw [List.foldl_append]
    exact (ih fun c hc => named c (List.mem_append_left _ hc)).after (named call (by simp))

theorem named_foldl (named : ∀ call ∈ calls, call.Named) (writes : ∀ call ∈ calls, call.Writes P) :
    (calls.foldl after {}).scopes.Named P := by
  induction calls using List.reverseRecOn with
  | nil => exact .nil
  | append_singleton calls call ih =>
    rw [List.foldl_append]
    exact named_after (named call (by simp)) (writes call (by simp))
      (ih (fun c hc => named c (List.mem_append_left _ hc))
        fun c hc => writes c (List.mem_append_left _ hc))

/-- A store that shows what calls say is told by them. -/
theorem ShownBy.toldBy {σ : Type} [Store σ] {s : σ} {user : String} (shown : ShownBy s user a)
    (told : ToldBy calls a) (named : a.scopes.Named P) : Log.ToldBy calls s user where
  fields scope := ⟨_, shown.fields scope, told.scopes.read named scope⟩
  pointer := by rw [shown.pointer, told.pointer]
  completions := by rw [shown.completions, told.records]

end Account

end Questionnaire
