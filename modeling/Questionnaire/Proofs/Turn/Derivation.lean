import Questionnaire.Proofs.Answer.Reading
import Questionnaire.Proofs.State.Derived
import Questionnaire.Proofs.Turn.Conversation
import Questionnaire.Proofs.Turn.Patch
import Questionnaire.Proofs.Turn.Stored

/-!
# What becomes of derived values

An accepted answer reports the values that rules derived from it, and checks and selects with them.
They are stored with the answer, but the answer and the bookkeeping are written over them.

## Main Statements

* `Flow.stored_of_derived` - what is stored in the place of a derived value
* `Flow.derived_kept_iff` - a derived value is stored exactly when nothing else was written over it
-/

namespace Questionnaire

/-- An answer was applied, and what was derived from it has a property. -/
def TurnNote.Reports (note : TurnNote) (P : Fields → Prop) : Prop :=
  ∃ given derived n, note = .applied given derived n ∧ P derived

instance decidableReports (note : TurnNote) (P : Fields → Prop) [DecidablePred P] :
    Decidable (note.Reports P) :=
  match note with
  | .applied given derived n => decidable_of_iff (P derived)
    ⟨fun h => ⟨given, derived, n, rfl, h⟩, fun ⟨_, _, _, heq, h⟩ => by cases heq; exact h⟩
  | .nothing | .tableRows _ => isFalse (by simp [TurnNote.Reports])

namespace Flow

open Bookkeeping (flowScope)

variable {f : Flow} {user : String} {channel answer : Json} {w w' : World MemoryStore}
  {p : Pointer} {q : Question} {a : Acceptance} {r : Except Fault TurnResult}

/-- The preparer of answers names the values that it adds by scalars. -/
def AddsNamed (f : Flow) : Prop :=
  ∀ q s text, ∀ e ∈ (f.prepared q s text).extra, e.1.isKey = true

theorem addsNamed_of_plain (plain : f.preparer = none) : f.AddsNamed := by
  intro q s text e he
  rw [prepared, plain] at he
  cases he

/-- What an accepted answer stores stands under distinct scalars. -/
theorem AddsNamed.regular_patch {m : MemoryStore} {s s' : State} {text : String}
    {applied : Applied} (named : f.AddsNamed)
    (accepts : f.Accepts m user p q answer channel a s text s' applied) :
    Assoc.Regular a.patch := by
  obtain ⟨derived, pending, notes, passed⟩ := passed_of_judge accepts.judged
  obtain ⟨s₁, derives⟩ := State.derives_of_applyDerived passed.rules
  obtain ⟨v, happly, -⟩ := applyValue_of_taking accepts.taken
  obtain ⟨hfield, -, hisKey⟩ := applied_of_applyValue happly
  rw [passed.patch]
  exact regular_answerPatch applied (named q s text) passed.written derives.regular
    (hfield ▸ hisKey)

/-- An answer that is applied is not absent. -/
theorem ne_null_of_taking {s s' : State} {text : String} {applied : Applied}
    (h : f.taking s q text channel = .ok (.applied s' applied)) : applied.value ≠ .null := by
  obtain ⟨v, happly, hsource⟩ := applyValue_of_taking h
  rw [(applied_of_applyValue happly).2.1]
  rcases hsource with rfl | hread
  · simp
  · exact (Answer.isValue_of_read hread).ne_null

/-- In the place of a derived value the section holds what was written over it, or else the derived
value. -/
theorem stored_of_derived {s s' : State} {text : String} {applied : Applied}
    {derived notes : Fields} {pending : List PendingAttachment} (named : f.AddsNamed)
    (accepts : f.Accepts w.store user p q answer channel a s text s' applied)
    (passed : f.Passed p q (f.prepared q s text).extra s' applied channel a derived pending notes)
    (hscope : p.sectionKey.isKey = true) (scopes : Scopes) {key v : Json}
    (hderived : Assoc.valueAt? key derived = some v) (hv : v ≠ .null) :
    Assoc.valueAt? key ((scopes.write p.sectionKey a.patch).own p.sectionKey) =
      some ((later? [(applied.fieldKey, applied.value)] notes key).getD v) := by
  obtain ⟨s₁, derives⟩ := State.derives_of_applyDerived passed.rules
  obtain ⟨v', happly, -⟩ := applyValue_of_taking accepts.taken
  obtain ⟨hfield, -, hisKey⟩ := applied_of_applyValue happly
  have hkey : applied.fieldKey.isKey = true := hfield ▸ hisKey
  have hpatch : Assoc.Regular a.patch := named.regular_patch accepts
  have hfound : Assoc.valueAt? key a.patch =
      some ((later? [(applied.fieldKey, applied.value)] notes key).getD v) := by
    rw [passed.patch]
    exact valueAt?_answerPatch_of_derived passed.written derives.regular hkey hderived
  -- neither the answer nor the bookkeeping is absent, so whatever stands there is written
  have hpresent : (later? [(applied.fieldKey, applied.value)] notes key).getD v ≠ .null := by
    intro hnull
    cases hlater : later? [(applied.fieldKey, applied.value)] notes key with
    | none =>
      rw [hlater] at hnull
      exact hv hnull
    | some x =>
      rw [hlater, Option.getD_some] at hnull
      rcases Option.or_eq_some_iff.1 hlater with hnote | ⟨-, hgiven⟩
      · obtain ⟨e, he, -, rfl⟩ := Assoc.mem_of_valueAt? hnote
        exact ne_null_of_bookkeeping passed.written e he hnull
      · obtain ⟨e, he, -, rfl⟩ := Assoc.mem_of_valueAt? hgiven
        rw [List.mem_singleton.1 he] at hnull
        exact ne_null_of_taking accepts.taken hnull
  rw [Scopes.valueAt?_own_write hscope scopes hpatch, hfound, Option.filter_some,
    if_pos ((Scopes.isWritten_iff _).2 hpresent), Option.some_or]

/-- After a turn that accepts an answer, the section holds a value that the turn reports as derived
exactly when neither the answer nor the bookkeeping has written another value over it.  Only the
record of completed sections is set aside, in a section that is named like the scope of this
record. -/
theorem derived_kept_iff (named : f.AddsNamed)
    (hdecide : f.decide w.store user answer channel = .ok (.accept p q a))
    (hrun : (f.processTurn user answer channel).run w = (r, w')) :
    ∃ v derived pending notes,
      a.note = .applied [(q.fieldKey, v)] derived pending.length ∧
      (∀ result, r = .ok result → result.note = a.note) ∧
      bookkeeping a.state q pending a.fired a.next.isNone = .ok notes ∧
      ∀ e ∈ derived, e.2 ≠ .null →
        ¬ (p.sectionKey = flowScope ∧ e.1 = Bookkeeping.completed) →
        (w'.store.own? user p.sectionKey e.1 = some e.2 ↔
          ∀ x, later? [(q.fieldKey, v)] notes e.1 = some x → x = e.2) := by
  obtain ⟨stands, -, s, text, s', applied, accepts⟩ := grounded_of_decide hdecide
  obtain ⟨derived, pending, notes, passed⟩ := passed_of_judge accepts.judged
  obtain ⟨s₁, derives⟩ := State.derives_of_applyDerived passed.rules
  obtain ⟨v, happly, -⟩ := applyValue_of_taking accepts.taken
  have hfield := (applied_of_applyValue happly).1
  refine ⟨applied.value, derived, pending, notes, ?_, ?_, passed.written, ?_⟩
  · rw [passed.note, hfield]
  · rintro result rfl
    obtain ⟨d, hd, -, tells⟩ := told_of_processTurn hrun
    cases hdecide.symm.trans hd
    exact tells.note
  · intro e he hnull hrecord
    have hheld : w'.store.own? user p.sectionKey e.1 =
        some ((later? [(q.fieldKey, applied.value)] notes e.1).getD e.2) := by
      rw [← hfield]
      -- completing sections in the same turn does not change it any more
      exact scopes_of_processTurn (Scopes.ignoresRecord_own hrecord _) hdecide
        (stored_of_derived named accepts passed stands.isKey (w.store.scopes user)
          (derives.regular.valueAt?_of_mem he) hnull) hrun
    rw [hheld]
    cases later? [(q.fieldKey, applied.value)] notes e.1 <;> simp

/-- A catalog whose one rule derives a field from the answers above one hundred. -/
def order (field : String) (value : Json) : Json :=
  .obj [
    ("questions", .arr [
      .obj [("qid", .str "Q1"), ("field_key", .str "amount"), ("data_type", .str "number"),
        ("prompt", .str "Amount?")],
      .obj [("qid", .str "Q2"), ("field_key", .str "note"), ("prompt", .str "Note?")]]),
    ("stages", .arr [.obj [("stage_key", .str "s"),
      ("question_ids", .arr [.str "Q1", .str "Q2"])]]),
    ("engine_contract", .obj [("derived_rules", .arr [.obj [("target_field", .str field),
      ("set_when", .str "amount > 100"), ("value", value)]])]),
    ("processes", .arr [.obj [("process_key", .str "01"), ("stage_keys", .arr [.str "s"])]])]

/-- A world in which the amount is asked for. -/
def pendingAmount : World MemoryStore where
  store := {
    pointers := [("u1", ⟨.str "01", .str "Q1", .str "s", .active, .str "00000001"⟩)] }
  sessions := 1
  now := "2000-01-01T00:00:00+00:00"

/-- A derived value of another field is stored with the answer. -/
theorem derived_kept_order : ∃ c r w', c.Accepted ∧
    ((Flow.mk c none).processTurn "u1" (.str "150") .null).run pendingAmount = (r, w') ∧
    w'.store.own? "u1" (.str "01") (.str "size") = some (.str "large") := by
  have evaluated : Outcome.Gives (Catalog.ofJson (order "size" (.str "large")) "catalog.json")
      fun e => Outcome.Gives ((Flow.mk e.1 none).decide pendingAmount.store "u1" (.str "150") .null)
        (·.Accepting fun p q a => p.sectionKey = .str "01" ∧ q.fieldKey = .str "amount" ∧
          a.note.Reports fun derived =>
            derived.any (fun e => e.1 == .str "size" && e.2 == .str "large") = true) := by
    decide +kernel
  obtain ⟨⟨c, warnings⟩, hc, _, haccept, p, q, a, rfl, hsection, hfield, hreports⟩ := evaluated
  rcases hrun : ((Flow.mk c none).processTurn "u1" (.str "150") .null).run pendingAmount with
    ⟨r, w'⟩
  obtain ⟨v, derived, pending, notes, hnote, -, hnotes, hkept⟩ :=
    derived_kept_iff (fun _ _ _ e he => by cases he) haccept hrun
  rw [hnote] at hreports
  obtain ⟨_, _, _, heq, hreports⟩ := hreports
  cases heq
  obtain ⟨e, he, hentry⟩ := List.any_eq_true.1 hreports
  simp only [Bool.and_eq_true, Json.beq_str] at hentry
  obtain ⟨hkey, hvalue⟩ := hentry
  have hrecord : ¬ (p.sectionKey = flowScope ∧ e.1 = Bookkeeping.completed) := by
    rw [hkey]
    exact fun h => absurd (Json.str.inj h.2) (by decide)
  have hheld := (hkept e he (by rw [hvalue]; simp) hrecord).2
  rw [hsection, hkey, hvalue, hfield] at hheld
  refine ⟨c, r, w', ⟨_, "catalog.json", warnings, hc⟩, hrun, hheld fun x hx => ?_⟩
  -- neither the answer nor the bookkeeping stands under the derived field
  have hfree : Assoc.valueAt? (.str "size") notes = none := by
    refine Assoc.valueAt?_eq_none fun d hd => ?_
    have hmem : d.1 ∈ noteKeys q.isTable := by
      rw [← keys_of_bookkeeping hnotes]
      exact List.mem_map_of_mem hd
    revert hmem
    generalize d.1 = key
    revert key
    cases q.isTable <;> decide
  rw [later?, hfree] at hx
  cases hx

/-- A derived value of the field that was answered is reported, but the answer is stored. -/
theorem derived_overwritten_order : ∃ c r w' given derived n, c.Accepted ∧
    ((Flow.mk c none).processTurn "u1" (.str "150") .null).run pendingAmount = (.ok r, w') ∧
    r.note = .applied given derived n ∧ (.str "amount", .int 100) ∈ derived ∧
    w'.store.own? "u1" (.str "01") (.str "amount") = some (.int 150) := by
  have evaluated : Outcome.Gives (Catalog.ofJson (order "amount" (.int 100)) "catalog.json")
      fun e => Outcome.Gives
        (((Flow.mk e.1 none).processTurn "u1" (.str "150") .null).run pendingAmount).1 fun r =>
          r.note.Reports (fun derived => ∃ e ∈ derived, e.1 = .str "amount" ∧ e.2 = .int 100) ∧
          ∃ v ∈ (((Flow.mk e.1 none).processTurn "u1" (.str "150") .null).run
            pendingAmount).2.store.own? "u1" (.str "01") (.str "amount"), v = .int 150 := by
    decide +kernel
  obtain ⟨⟨c, warnings⟩, hc, r, hr, hreports, _, hheld, rfl⟩ := evaluated
  obtain ⟨given, derived, n, hnote, ⟨_, _⟩, he, rfl, rfl⟩ := hreports
  exact ⟨c, r, _, given, derived, n, ⟨_, "catalog.json", warnings, hc⟩, Prod.ext hr rfl, hnote, he,
    hheld⟩

end Flow

end Questionnaire
