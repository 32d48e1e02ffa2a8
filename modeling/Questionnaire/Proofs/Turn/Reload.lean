import Questionnaire.Proofs.State.Reloading
import Questionnaire.Proofs.Turn.Document

/-!
# What the next turn starts from

An accepted answer is checked in memory, and what follows from it is stored.  The next turn starts
from what was stored, and finds the state again that was checked.

## Main Definitions

* `Flow.Grants` - what an accepted answer has made of the stored values
* `Flow.due` - the question that stored values lead to

## Main Statements

* `Flow.isStale_iff_of_decide` - a pointer is out of date when another question is due
* `Flow.reloaded_as_decided` - after an answer is stored, the state that was checked is loaded again
-/

namespace Questionnaire

namespace Flow

variable {f : Flow} {user : String}

/-- What an accepted answer has made of the state that was loaded from the stored values. -/
structure Grants (f : Flow) (stored : Fields) (q : Question) (a : Acceptance) (s : State)
    (v : Json) (extra updates notes : Fields) : Prop where
  /-- The state holds the stored values, with defaults for the missing ones. -/
  values : State.compute (State.completed f.catalog stored) f.catalog.computedVars = .ok s.values
  /-- The defaults are provisional. -/
  status : s.status = State.completedStatus f.catalog stored
  /-- The answer is a value. -/
  isValue : v.IsValue
  /-- The answer and the rules behind it have led to the state that was checked. -/
  settles : State.Settles f.catalog s q.fieldKey v a.state updates
  /-- The answer was written into a document. -/
  isDocument : a.state.document.IsDocument
  /-- Bookkeeping is written with the answer. -/
  written : ∃ pending, bookkeeping a.state q pending a.fired a.next.isNone = .ok notes
  /-- Further values, derived values, the answer and the bookkeeping are stored. -/
  patch : ∃ qid, a.patch = answerPatch extra updates ⟨qid, q.fieldKey, v⟩ notes

namespace Grants

variable {stored extra updates notes : Fields} {q : Question} {a : Acceptance} {s : State}
  {v : Json} {scopes : Scopes} {scope : Json}

theorem regular (grants : f.Grants stored q a s v extra updates notes)
    (named : ∀ e ∈ extra, e.1.isKey = true) : Assoc.Regular a.patch := by
  obtain ⟨pending, hnotes⟩ := grants.written
  obtain ⟨qid, hpatch⟩ := grants.patch
  rw [hpatch]
  exact regular_answerPatch _ named hnotes grants.settles.regular grants.settles.isKey

/-- The document of the answer is found in the section again. -/
theorem storedDocument_read (grants : f.Grants stored q a s v extra updates notes)
    (named : ∀ e ∈ extra, e.1.isKey = true) (hscope : scope.isKey = true)
    (regular : scopes.Regular) :
    storedDocument ((scopes.write scope a.patch).read scope) = some a.state.document := by
  obtain ⟨pending, hnotes⟩ := grants.written
  obtain ⟨qid, hpatch⟩ := grants.patch
  obtain ⟨text, htext, hdocument⟩ :=
    document_answerPatch extra updates ⟨qid, q.fieldKey, v⟩ hnotes
  refine storedDocument_write grants.isDocument htext ?_
  rw [Scopes.valueAt?_read_write hscope regular (grants.regular named), hpatch, hdocument]
  rfl

/-- Without further values the answer and what rules wrote stand before what was stored. -/
theorem stores (grants : f.Grants (scopes.read scope) q a s v [] updates notes)
    (hscope : scope.isKey = true) (regular : scopes.Regular)
    (given : ∀ e ∈ updates, e.2 ≠ .null) (free : ∀ e ∈ updates, (e.1 == q.fieldKey) = false) :
    State.Stores q.fieldKey v updates (scopes.read scope)
      ((scopes.write scope a.patch).read scope) := by
  obtain ⟨pending, hnotes⟩ := grants.written
  obtain ⟨qid, hpatch⟩ := grants.patch
  have hpresent := grants.isValue.ne_null
  refine ⟨hpresent, free, given, fun k hfree => ?_⟩
  rw [Scopes.valueAt?_read_write hscope regular (grants.regular (by simp)), hpatch,
    valueAt?_answerPatch hnotes grants.settles.regular grants.settles.isKey hfree]
  show (Option.filter _ (State.given? q.fieldKey v updates k)).or _ = _
  cases hgiven : State.given? q.fieldKey v updates k with
  | none => rfl
  | some x =>
    -- absent values are not written, but here there is none
    have hx := State.given?_ne_null hpresent given hgiven
    rw [Option.filter_some, if_pos ((Scopes.isWritten_iff x).2 hx)]

end Grants

/-- The preparer of answers gives no further values in a turn. -/
def AddsNothing (f : Flow) (m : MemoryStore) (user : String) (p : Pointer) (q : Question)
    (answer : Json) : Prop :=
  ∀ s text, f.loadState ((m.scopes user).read p.sectionKey) = .ok s →
    Answer.given answer = .ok text → (f.prepared q s text).extra = []

variable {m : MemoryStore} {p : Pointer} {q : Question} {a : Acceptance} {answer channel : Json}

theorem exists_grants_of_accept (loaded : f.catalog.Loaded)
    (isKey : ∀ u ∈ f.catalog.computedVars, u.target.isKey = true) (wellFormed : m.WellFormed)
    (h : f.decide m user answer channel = .ok (.accept p q a)) :
    ∃ s text v updates notes,
      f.loadState ((m.scopes user).read p.sectionKey) = .ok s ∧ Answer.given answer = .ok text ∧
        f.Grants ((m.scopes user).read p.sectionKey) q a s v (f.prepared q s text).extra updates
          notes := by
  obtain ⟨-, -, s, text, s₁, applied, accepts⟩ := grounded_of_decide h
  have hstored (key v : Json)
      (h : Assoc.valueAt? key ((m.scopes user).read p.sectionKey) = some v) : v.WellFormed := by
    obtain ⟨e, he, -, rfl⟩ := Assoc.mem_of_valueAt? h
    exact (wellFormed.scopes user).values_read p.sectionKey e he
  obtain ⟨hdocument, hvalues, hstatus⟩ := State.ofFields_spec accepts.loaded
  obtain ⟨updates, pending, notes, passed⟩ := passed_of_judge accepts.judged
  -- the value was collected as a table or read from the text, and is written back as it is
  obtain ⟨v, happly, isValue⟩ :=
    exists_isValue_of_taking loaded (hstored _) hvalues accepts.taken
  obtain ⟨hkey, hvalue, settles⟩ := State.settles_of_apply isKey happly passed.rules
  have isDocument : a.state.document.IsDocument := by
    refine settles.document loaded.rules isValue.wellFormed ?_
    exact State.isDocument_documentOf loaded (fun _ _ => hstored _)
      (fun d hd => isDocument_storedDocument (hstored _) hd) hdocument
  obtain ⟨qid, key, v'⟩ := applied
  cases hkey
  cases hvalue
  exact ⟨s, text, _, updates, notes, accepts.loaded, accepts.given, hvalues, hstatus, isValue,
    settles, isDocument, ⟨pending, passed.written⟩, qid, passed.patch⟩

/-- After an answer is stored, the state that is loaded agrees with the one that was checked. -/
theorem exists_agrees_of_accept (loaded : f.catalog.Loaded) (usable : f.catalog.usable = .ok ())
    (clear : f.catalog.KeepsClear) (wellFormed : m.WellFormed)
    (h : f.decide m user answer channel = .ok (.accept p q a))
    (plain : f.AddsNothing m user p q answer)
    (free : ∀ r ∈ f.catalog.derivedRules, (r.target == q.fieldKey) = false) :
    ∃ s, f.loadState (((m.patched user p.sectionKey a.patch).scopes user).read p.sectionKey) =
      .ok s ∧ s.Agrees a.state := by
  obtain ⟨stands, -⟩ := grounded_of_decide h
  have isKey := Catalog.isKey_of_usable usable
  have regular := (wellFormed.scopes user).regular
  obtain ⟨s, text, v, updates, notes, hs, htext, grants⟩ :=
    exists_grants_of_accept loaded isKey wellFormed h
  -- the preparer adds nothing, so the patch is the answer with what rules wrote
  rw [plain s text hs htext] at grants
  -- what rules wrote are their values, and stands under their targets
  have hgiven : ∀ e ∈ updates, e.2 ≠ .null := by
    intro e he hnull
    obtain ⟨r, hr, hvalue⟩ := grants.settles.given e he
    have hthere := clear.given r hr
    rw [hvalue, hnull] at hthere
    cases hthere
  have hfree : ∀ e ∈ updates, (e.1 == q.fieldKey) = false := by
    intro e he
    obtain ⟨r, hr, htarget⟩ := grants.settles.targets e he
    rw [← htarget]
    exact free r hr
  obtain ⟨s', hs', agrees⟩ := State.exists_agrees loaded.defaults.1 clear isKey grants.values
    grants.status grants.settles (grants.stores stands.isKey regular hgiven hfree)
  refine ⟨s', ?_, agrees⟩
  rw [MemoryStore.scopes_patched_self, loadState,
    grants.storedDocument_read (by simp) stands.isKey regular]
  exact hs'

/-- An answer that leads to another question of the section is stored, and the pointer moves on. -/
theorem store_of_carryAcceptance {w w' : World MemoryStore} {r : Except Fault TurnResult}
    {nq : NextQuestion} (hkey : p.sectionKey.isKey = true) (hfired : a.fired = [])
    (hnext : a.next = some nq) (h : (f.carryAcceptance user p a channel).run w = (r, w')) :
    w'.store = (w.store.patched user p.sectionKey a.patch).savePointer user
      (p.advance nq.qid nq.stageKey) := by
  obtain ⟨hhandoff, -⟩ | ⟨nq', -, hnext', -, rfl⟩ | ⟨-, hnone, -⟩ := acceptance_cases hkey h
  · exact absurd hfired hhandoff
  · cases hnext.symm.trans hnext'
    rfl
  · cases hnext.symm.trans hnone

/-- The question that the stored values of a section lead to. -/
def due (f : Flow) (m : MemoryStore) (user : String) (section_ channel : Json) :
    Except Fault (Option NextQuestion) := do
  let s ← f.loadState ((m.scopes user).read section_)
  s.nextQuestion? f.catalog (some (f.catalog.stageKeysOf section_)) channel

/-- On every channel the same question is due. -/
theorem due_channel {section_ : Json} {found : Option NextQuestion}
    (h : f.due m user section_ channel = .ok found) (channel' : Json) :
    ∃ found', f.due m user section_ channel' = .ok found' ∧
      found'.map (·.qid) = found.map (·.qid) := by
  obtain ⟨s, hs, hnext⟩ := Outcome.bind_eq_ok_iff.1 h
  obtain ⟨found', hfound', hqid⟩ := State.nextQuestion?_channel hnext channel'
  exact ⟨found', Outcome.bind_eq_ok_iff.2 ⟨s, hs, hfound'⟩, hqid⟩

/-- A pointer is out of date when a question is due and does not equal its position. -/
theorem isStale_iff_of_decide (stands : f.Stands m user p) {d : Decision}
    (h : f.decide m user answer channel = .ok d) : d.isStale = true ↔
      ∃ e, f.due m user p.sectionKey channel = .ok (some e) ∧
        e.qid.equal p.position = false := by
  constructor
  · intro hstale
    cases d with
    | redirect p' s e =>
      obtain ⟨stands', hs, hexpected, hne⟩ := grounded_of_decide h
      cases stands.pointer.symm.trans stands'.pointer
      exact ⟨e, Outcome.bind_eq_ok_iff.2 ⟨s, hs, hexpected⟩, hne⟩
    | _ => cases hstale
  · rintro ⟨e, hdue, hne⟩
    obtain ⟨s, hs, hexpected⟩ := Outcome.bind_eq_ok_iff.1 hdue
    have hstale : (some e).filter (fun e => !e.qid.equal p.position) = some e :=
      Option.filter_eq_some_iff.2 ⟨rfl, by rw [hne]; rfl⟩
    rw [decide_of_stands stands, decideActive, MemoryStore.getFields_of_isKey stands.isKey,
      Outcome.ok_bind, hs, Outcome.ok_bind] at h
    obtain ⟨question, -, h⟩ := Outcome.bind_eq_ok_iff.1 h
    rw [hexpected, Outcome.ok_bind, hstale] at h
    cases h
    rfl

/-- The same in terms of what is due on any channel. -/
theorem isStale_iff_of_due {found : Option NextQuestion} (stands : f.Stands m user p)
    (hdue : f.due m user p.sectionKey channel = .ok found) {answer' channel' : Json} {d : Decision}
    (h : f.decide m user answer' channel' = .ok d) :
    d.isStale = true ↔ ∃ e ∈ found, e.qid.equal p.position = false := by
  obtain ⟨found', hfound', hqid⟩ := due_channel hdue channel'
  rw [isStale_iff_of_decide stands h, hfound']
  cases found with
  | none => simp [Option.map_eq_none_iff.1 hqid]
  | some e =>
    obtain ⟨e', rfl, he'⟩ := Option.map_eq_some_iff.1 hqid
    simp [he']

/-- What a turn has decided on is what the next turn starts from.  After the patch of an accepted
answer the state that is loaded agrees with the one that passed the checks and selected the next
question, and selects the same one; so when the pointer moves to this question, it is not out of
date in any following turn. -/
theorem reloaded_as_decided {w : World MemoryStore} (loaded : f.catalog.Loaded)
    (usable : f.catalog.usable = .ok ()) (clear : f.catalog.KeepsClear)
    (wellFormed : w.store.WellFormed)
    (h : f.decide w.store user answer channel = .ok (.accept p q a))
    (plain : f.AddsNothing w.store user p q answer)
    (free : ∀ r ∈ f.catalog.derivedRules, (r.target == q.fieldKey) = false) :
    a.state.firstFailure? f.catalog = .ok none ∧
    a.state.nextQuestion? f.catalog (some (f.catalog.stageKeysOf p.sectionKey)) channel =
      .ok a.next ∧
    (∃ s, f.loadState (((w.store.patched user p.sectionKey a.patch).scopes user).read
        p.sectionKey) = .ok s ∧ s.Agrees a.state ∧
      ∀ keys channel', s.nextQuestion? f.catalog keys channel' =
        a.state.nextQuestion? f.catalog keys channel') ∧
    ∀ r w', (f.processTurn user answer channel).run w = (r, w') →
      ∀ nq, a.fired = [] → a.next = some nq → ∀ now answer' channel' r' w'',
        (f.processTurn user answer' channel').run { w' with now := now } = (.ok r', w'') →
        r'.isStale = !nq.qid.equal nq.qid := by
  obtain ⟨stands, -, s₀, text, s₁, applied, accepts⟩ := grounded_of_decide h
  obtain ⟨updates, pending, notes, passed⟩ := passed_of_judge accepts.judged
  obtain ⟨s, hs, agrees⟩ :=
    exists_agrees_of_accept loaded usable clear wellFormed h plain free
  refine ⟨passed.noFailure, passed.next, ⟨s, hs, agrees, agrees.nextQuestion? clear⟩, ?_⟩
  intro r w' hrun nq hfired hnext now answer' channel' r' w'' hnow
  -- the next turn reads the store that this one has left
  rw [run_processTurn, h] at hrun
  have hstore := store_of_carryAcceptance stands.isKey hfired hnext hrun
  obtain ⟨d, hdecide, -, tells⟩ := told_of_processTurn hnow
  rw [tells.isStale]
  dsimp only at hdecide
  rw [hstore] at hdecide
  -- there it selects what this one selected, and finds the pointer at it
  have hselect := passed.next
  rw [← agrees.nextQuestion? clear, hnext] at hselect
  have stands' : f.Stands ((w.store.patched user p.sectionKey a.patch).savePointer user
      (p.advance nq.qid nq.stageKey)) user (p.advance nq.qid nq.stageKey) :=
    ⟨MemoryStore.pointer?_savePointer_self _ user _, stands.isActive, stands.isKey, stands.isKnown⟩
  have hdue : f.due ((w.store.patched user p.sectionKey a.patch).savePointer user
      (p.advance nq.qid nq.stageKey)) user p.sectionKey channel = .ok (some nq) :=
    Outcome.bind_eq_ok_iff.2 ⟨s, hs, hselect⟩
  rw [Bool.eq_iff_iff, isStale_iff_of_due stands' hdue hdecide]
  simp [Pointer.advance]

/-- A catalog with a default, a derived rule, a computed variable and a module that follows from the
rule. -/
def household : Json :=
  .obj [
    ("questions", .arr [
      .obj [("qid", .str "Q1"), ("field_key", .str "people"), ("data_type", .str "number"),
        ("prompt", .str "How many people?"), ("json_path", .str "home.people")],
      .obj [("qid", .str "Q2"), ("field_key", .str "pets"), ("prompt", .str "Any pets?"),
        ("module_key", .str "family"), ("ask_if", .str "total > 3")]]),
    ("stages", .arr [.obj [("stage_key", .str "s"),
      ("question_ids", .arr [.str "Q1", .str "Q2"])]]),
    ("modules_catalog", .arr [.obj [("module_key", .str "family"),
      ("enable_if", .str "shared == true")]]),
    ("engine_contract", .obj [
      ("defaults", .obj [("people", .int 1), ("pets", .str "none")]),
      ("derived_rules", .arr [.obj [("target_field", .str "shared"),
        ("set_when", .str "people > 1"), ("value", .bool true)]]),
      ("computed_vars", .arr [.obj [("target", .str "total"),
        ("terms", .arr [.str "people", .str "guests"])]])]),
    ("processes", .arr [.obj [("process_key", .str "01"), ("stage_keys", .arr [.str "s"])]])]

/-- A world in which its first question is pending, and another section has stored a value. -/
def pendingPeople : World MemoryStore where
  store := {
    fields := [("u1", [(.str "00", [(.str "guests", .int 2)])])]
    pointers := [("u1", ⟨.str "01", .str "Q1", .str "s", .active, .str "00000001"⟩)] }
  sessions := 1
  now := "2000-01-01T00:00:00+00:00"

theorem wellFormed_household : household.WellFormed := by
  simp [household]

theorem wellFormed_pendingPeople : pendingPeople.store.WellFormed := by
  intro e he
  rw [List.mem_singleton.1 he]
  constructor
  · intro scope hscope
    rw [List.mem_singleton.1 hscope]
    exact ⟨by simp [Json.isKey], List.pairwise_singleton _ _⟩
  · intro scope hscope
    rw [List.mem_singleton.1 hscope]
    simp

/-- The number of people is stored with what follows from it, and all of it is loaded again. -/
theorem reloaded_as_decided_household : ∃ c warnings p q a,
    Catalog.ofJson household "catalog.json" = .ok (c, warnings) ∧
      (Flow.mk c none).decide pendingPeople.store "u1" (.str "4") .null = .ok (.accept p q a) ∧
      a.next.isSome = true ∧
      ∃ s, (Flow.mk c none).loadState
          (((pendingPeople.store.patched "u1" p.sectionKey a.patch).scopes "u1").read
            p.sectionKey) = .ok s ∧ s.Agrees a.state := by
  have evaluated : Outcome.Gives (Catalog.ofJson household "catalog.json") fun e =>
      Outcome.Gives e.1.usable fun _ =>
        Outcome.Gives ((Flow.mk e.1 none).decide pendingPeople.store "u1" (.str "4") .null)
          (·.Accepting fun _ q a => e.1.KeepsClear ∧
            (∀ r ∈ e.1.derivedRules, (r.target == q.fieldKey) = false) ∧ a.next.isSome = true) := by
    decide +kernel
  obtain ⟨⟨c, warnings⟩, hc, _, husable, _, haccept, p, q, a, rfl, clear, free, hnext⟩ := evaluated
  have loaded : c.Loaded := ⟨household, "catalog.json", warnings, wellFormed_household, hc⟩
  obtain ⟨-, -, ⟨s, hs, agrees, -⟩, -⟩ := reloaded_as_decided loaded husable clear
    wellFormed_pendingPeople haccept (fun _ _ _ _ => rfl) free
  exact ⟨c, warnings, p, q, a, hc, haccept, hnext, s, hs, agrees⟩

end Flow

end Questionnaire
