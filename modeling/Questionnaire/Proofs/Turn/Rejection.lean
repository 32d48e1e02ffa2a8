import Questionnaire.Catalog.Loading
import Questionnaire.Proofs.Turn.Result

/-!
# Turns that accept no answer

A turn that asks the pending question again leaves the collected values alone.  A rejected answer
empties the extracted answer, a question that is set aside changes nothing at all, and a pointer
that is out of date is moved and nothing else.

## Main Definitions

* `MemoryStore.ClearsAtMost` - the extracted answer of one scope is empty or what it was, and all
  else is what it was
* `MemoryStore.MovesAtMost` - the pointer of one user stands at another question, and all else is
  what it was
* `Flow.SetsAside` - the preparer has the pending question asked again

## Main Statements

* `Flow.unaccepted_turn` - what turns that accept no answer change
-/

namespace Questionnaire

namespace MemoryStore

/-- The extracted answer of a scope is empty or what it was, and everything else is what it was. -/
structure ClearsAtMost (user : String) (scope : Json) (m m' : MemoryStore) : Prop where
  /-- What is kept of other users is the same. -/
  elsewhere : Elsewhere user m m'
  /-- The pointer is the same. -/
  pointer : m'.pointer? user = m.pointer? user
  /-- The history is the same. -/
  records : m'.records user = m.records user
  /-- Every scope holds the same values. -/
  own : ∀ other key, key ≠ Bookkeeping.transient ∨ (scope == other) = false →
    m'.own? user other key = m.own? user other key
  /-- The extracted answer of the scope is empty or the same. -/
  transient : m'.own? user scope Bookkeeping.transient = some (.str "") ∨
    m'.own? user scope Bookkeeping.transient = m.own? user scope Bookkeeping.transient

/-- The pointer of a user stands at another question, and everything else is what it was. -/
structure MovesAtMost (user : String) (m m' : MemoryStore) : Prop where
  /-- What is kept of other users is the same. -/
  elsewhere : Elsewhere user m m'
  /-- The pointer has at most another position and stage. -/
  pointer : ∃ p position stageKey, m.pointer? user = some p ∧
    m'.pointer? user = some { p with position := position, stageKey := stageKey }
  /-- The history is the same. -/
  records : m'.records user = m.records user
  /-- The scopes are the same. -/
  scopes : m'.scopes user = m.scopes user

theorem clearsAtMost_refl (user : String) (scope : Json) (m : MemoryStore) :
    ClearsAtMost user scope m m :=
  ⟨.refl user m, rfl, rfl, fun _ _ _ => rfl, .inr rfl⟩

theorem clearsAtMost_patched {scope : Json} (hscope : scope.isKey = true) (m : MemoryStore)
    (user : String) :
    ClearsAtMost user scope m (m.patched user scope [(Bookkeeping.transient, .str "")]) where
  elsewhere := .patched m user scope _
  pointer := rfl
  records := rfl
  own other key h := by
    rw [own?_patched_transient hscope, if_neg]
    -- the patch reaches only one key of one scope
    intro hboth
    obtain ⟨hother, hkey⟩ := Bool.and_eq_true_iff.1 hboth
    rcases h with hne | hne
    · exact hne ((Json.beq_str _ _).1 hkey)
    · rw [hne] at hother
      cases hother
  transient := by
    left
    rw [own?_patched_transient hscope, (Json.isName_of_isKey hscope).self]
    rfl

theorem movesAtMost_savePointer {m : MemoryStore} {user : String} {p : Pointer}
    (hp : m.pointer? user = some p) (position stageKey : Json) :
    MovesAtMost user m (m.savePointer user (p.advance position stageKey)) where
  elsewhere := .savePointer m user _
  pointer := ⟨p, position, stageKey, hp, pointer?_savePointer_self m user _⟩
  records := rfl
  scopes := rfl

end MemoryStore

namespace Flow

open MemoryStore (ClearsAtMost MovesAtMost)

/-- A conversation stands at its expected question, and the preparer has it asked again. -/
def SetsAside (f : Flow) (m : MemoryStore) (user : String) (answer channel : Json) : Prop :=
  ∃ p s q expected text prepare, f.Stands m user p ∧
    f.loadState ((m.scopes user).read p.sectionKey) = .ok s ∧
    f.questionAt user p.position = .ok (some q) ∧
    s.nextQuestion? f.catalog (some (f.catalog.stageKeysOf p.sectionKey)) channel = .ok expected ∧
    (∀ e, expected = some e → e.qid.equal p.position = true) ∧
    Answer.given answer = .ok text ∧
    f.preparer = some prepare ∧ (prepare text (some q) s.values).reask = true

theorem decide_of_setsAside {f : Flow} {m : MemoryStore} {user : String} {answer channel : Json}
    (h : f.SetsAside m user answer channel) :
    ∃ p q, f.decide m user answer channel = .ok (.reask p q) := by
  obtain ⟨p, s, q, expected, text, prepare, stands, hs, hq, hexpected, hfresh, htext, hprepare,
    hreask⟩ := h
  -- the pending question is the expected one, so the answer gets to the preparer
  have hstale : (expected.filter fun e => !e.qid.equal p.position) = none := by
    rw [Option.filter_eq_none_iff]
    intro e he
    rw [hfresh e he]
    exact Bool.false_ne_true
  refine ⟨p, q, ?_⟩
  rw [decide_of_stands stands, decideActive, MemoryStore.getFields_of_isKey stands.isKey,
    Outcome.ok_bind, hs, Outcome.ok_bind, hq, Outcome.ok_bind, hexpected, Outcome.ok_bind, hstale]
  dsimp only
  rw [htext, Outcome.ok_bind]
  have hprepared : (f.prepared q s text).reask = true := by
    rw [prepared, hprepare]
    exact hreask
  rw [if_pos hprepared]
  rfl

theorem decide_of_isTerminal {f : Flow} {m : MemoryStore} {user : String} {p : Pointer}
    (answer channel : Json) (hp : m.pointer? user = some p) (hover : p.isTerminal = true) :
    f.decide m user answer channel = .ok .closed := by
  unfold decide
  show (Except.ok (m.pointer? user) >>= _ : Except Fault Decision) = _
  rw [Outcome.ok_bind, hp]
  dsimp only
  rw [if_pos hover]
  rfl

theorem clearsAtMost_cleared {section_ : Json} (hkey : section_.isKey = true) (m : MemoryStore)
    (user : String) (stored : Fields) :
    ClearsAtMost user section_ m (cleared m user section_ stored) := by
  unfold cleared
  split
  · exact MemoryStore.clearsAtMost_patched hkey m user
  · exact MemoryStore.clearsAtMost_refl user section_ m

variable {f : Flow} {user : String} {answer channel : Json} {w w' : World MemoryStore}
  {r : TurnResult}

theorem clearsAtMost_of_error (h : (f.processTurn user answer channel).run w = (.ok r, w'))
    (herror : r.error.isSome = true) :
    ∃ p, w.store.pointer? user = some p ∧ ClearsAtMost user p.sectionKey w.store w'.store := by
  obtain ⟨d, hdecide, hrun, tells⟩ := told_of_processTurn h
  have grounded := grounded_of_decide hdecide
  rw [tells.error] at herror
  cases d with
  | reject p stored q error =>
    rw [run_reject grounded.1.isKey] at hrun
    cases congrArg Prod.snd hrun
    exact ⟨p, grounded.1.pointer, clearsAtMost_cleared grounded.1.isKey w.store user stored⟩
  | _ => cases herror

theorem unchanged_of_setsAside (h : (f.processTurn user answer channel).run w = (.ok r, w'))
    (aside : f.SetsAside w.store user answer channel) : w' = w := by
  obtain ⟨p, q, hreask⟩ := decide_of_setsAside aside
  rw [run_processTurn, hreask] at h
  dsimp only at h
  rw [run_reask] at h
  exact (congrArg Prod.snd h).symm

theorem unchanged_of_isTerminal (h : (f.processTurn user answer channel).run w = (.ok r, w'))
    {p : Pointer} (hp : w.store.pointer? user = some p) (hover : p.isTerminal = true) :
    w' = w := by
  rw [run_processTurn, decide_of_isTerminal answer channel hp hover] at h
  dsimp only at h
  rw [run_closed] at h
  exact (congrArg Prod.snd h).symm

theorem movesAtMost_of_isStale (h : (f.processTurn user answer channel).run w = (.ok r, w'))
    (hstale : r.isStale = true) : MovesAtMost user w.store w'.store := by
  obtain ⟨d, hdecide, hrun, tells⟩ := told_of_processTurn h
  have grounded := grounded_of_decide hdecide
  rw [tells.isStale] at hstale
  cases d with
  | redirect p s e =>
    rw [run_redirect] at hrun
    cases congrArg Prod.snd hrun
    exact MemoryStore.movesAtMost_savePointer grounded.1.pointer e.qid e.stageKey
  | _ => cases hstale

/-- A turn that returns without accepting an answer leaves the collected values alone. -/
theorem unaccepted_turn (h : (f.processTurn user answer channel).run w = (.ok r, w')) :
    (r.error.isSome = true → ∃ p, w.store.pointer? user = some p ∧
      ClearsAtMost user p.sectionKey w.store w'.store) ∧
    (f.SetsAside w.store user answer channel ∨
      (∃ p, w.store.pointer? user = some p ∧ p.isTerminal = true) → w' = w) ∧
    (r.isStale = true → MovesAtMost user w.store w'.store) := by
  refine ⟨clearsAtMost_of_error h, ?_, movesAtMost_of_isStale h⟩
  rintro (aside | ⟨p, hp, hover⟩)
  · exact unchanged_of_setsAside h aside
  · exact unchanged_of_isTerminal h hp hover

/-- A catalog that asks for a truth value. -/
def doubting : Json :=
  .obj [
    ("questions", .arr [.obj [("qid", .str "Q1"), ("field_key", .str "fine"),
      ("data_type", .str "boolean"), ("prompt", .str "Is that fine?")]]),
    ("stages", .arr [.obj [("stage_key", .str "s"), ("question_ids", .arr [.str "Q1"])]]),
    ("processes", .arr [.obj [("process_key", .str "01"), ("stage_keys", .arr [.str "s"])]])]

/-- A world in which its question is pending and an answer was extracted. -/
def pendingTruth : World MemoryStore where
  store := {
    fields := [("u1", [(.str "01", [(Bookkeeping.transient, .str "maybe")])])]
    pointers := [("u1", ⟨.str "01", .str "Q1", .str "s", .active, .str "00000001"⟩)] }
  sessions := 1
  now := "2000-01-01T00:00:00+00:00"

/-- An answer that is no truth value is rejected, and only the extracted answer may change. -/
theorem unaccepted_turn_maybe : ∃ c warnings r w',
    Catalog.ofJson doubting "catalog.json" = .ok (c, warnings) ∧
      ((Flow.mk c none).processTurn "u1" (.str "maybe") .null).run pendingTruth = (.ok r, w') ∧
      r.error.isSome = true ∧
      ∃ p, pendingTruth.store.pointer? "u1" = some p ∧
        ClearsAtMost "u1" p.sectionKey pendingTruth.store w'.store := by
  have evaluated : (match Catalog.ofJson doubting "catalog.json" with
      | .error _ => false
      | .ok (c, _) =>
        match ((Flow.mk c none).processTurn "u1" (.str "maybe") .null).run pendingTruth with
        | (.error _, _) => false
        | (.ok r, _) => r.error.isSome) = true := by
    decide +kernel
  split at evaluated
  · cases evaluated
  · rename_i c warnings hc
    split at evaluated
    · cases evaluated
    · rename_i r w' hrun
      exact ⟨c, warnings, r, w', hc, hrun, evaluated, (unaccepted_turn hrun).1 evaluated⟩

end Flow

end Questionnaire
