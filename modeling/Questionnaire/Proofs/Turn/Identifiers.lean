import Questionnaire.Proofs.Turn.Collecting
import Questionnaire.Proofs.Turn.Hops

/-!
# Identifiers that are found again

A completed section is recorded under its key, and a draft is kept under the identifier of its
question, as they stand in the catalog.  Both are read back without the blanks around them.  So they
are found again when they are texts without blanks around them, and only then: a section with
another key is never known to be completed, and the draft under another identifier is lost.

## Main Statements

* `Flow.contains_completing_iff` - when a completed section is read back
* `Flow.pending_of_collect` - when a draft is found again
* `Flow.found_again_iff` - both
-/

namespace Questionnaire

namespace Routing

/-- Only texts without blanks around them are read back. -/
theorem isTrimmed_of_contains {fields : Fields} {key : Json}
    (h : (completed fields).contains key = true) : key.isTrimmed = true := by
  rw [List.contains_eq_any_beq, List.any_eq_true] at h
  obtain ⟨v, hv, hbeq⟩ := h
  obtain ⟨s, rfl, htrim, -⟩ := (labels_of_completed fields).1 v hv
  rw [(Json.beq_str key s).1 hbeq]
  exact beq_iff_eq.2 htrim

end Routing

namespace Flow

open Bookkeeping (flowScope)

variable {f : Flow} {user : String} {m : MemoryStore}

/-- A section that was completed is read back exactly when its key is a text without blanks around
it. -/
theorem contains_completing_iff {c : Catalog} (accepted : c.Accepted)
    (regular : (m.scopes user).Regular) {section_ : Json}
    (known : (c.process? section_).isSome = true) (record : CompletionRecord) :
    ((m.completing user section_ record).completed user).contains section_ = true ↔
      section_.isTrimmed = true := by
  refine ⟨Routing.isTrimmed_of_contains, fun trimmed => ?_⟩
  have label := Routing.isLabel_of_isTrimmed accepted known trimmed
  rw [(completed_completing regular label record).2, Routing.contains_iff_of_isLabel label]
  exact Routing.mem_complete label

/-- A draft that a turn has kept is found again exactly when the identifier of its question is a
text without blanks around it. -/
theorem pending_of_collect (loaded : f.catalog.Loaded) (usable : f.catalog.usable = .ok ())
    (spares : f.catalog.SparesDraft) {w w' : World MemoryStore} {p : Pointer} {q : Question}
    {c : Collection} {answer channel : Json} {r : Except Fault TurnResult}
    (sound : (w.store.scopes user).Sound f.catalog.Reads)
    (hdecide : f.decide w.store user answer channel = .ok (.collect p q c))
    (hrun : (f.processTurn user answer channel).run w = (r, w')) :
    pending w'.store user p q = if q.qid.isTrimmed then c.rows else [] := by
  obtain ⟨stands, -⟩ := grounded_of_decide hdecide
  obtain ⟨-, hdump, wellFormed⟩ := rows_of_collect loaded usable spares sound hdecide
  rw [pending, (stores_of_unaccepted hdecide rfl rfl hrun).1]
  exact pendingRows_write_draftPatch stands.isKey sound.regular hdump wellFormed

/-- Identifiers are found again exactly when they are texts without blanks around them.  Routing
comes back to a completed section with any other key whenever its condition holds, and a turn never
finds the rows that were kept for a question with any other identifier. -/
theorem found_again_iff (loaded : f.catalog.Loaded) (usable : f.catalog.usable = .ok ())
    (spares : f.catalog.SparesDraft) {w : World MemoryStore}
    (sound : (w.store.scopes user).Sound f.catalog.Reads) :
    (∀ section_ process sessionId position done w',
      f.catalog.process? section_ = some process →
      (recordCompletion user section_ sessionId position).run w = (.ok done, w') →
      ((w'.store.completed user).contains section_ = true ↔ section_.isTrimmed = true) ∧
      (section_.isTrimmed = true → ∀ fields,
        Routing.next f.catalog (w'.store.completed user) fields ≠ some section_) ∧
      ∀ fields, Routing.isEligible f.catalog (w'.store.completed user) fields section_ =
        (!section_.isTrimmed && Condition.holds process.askIf fields)) ∧
    ∀ p q c answer channel r w' s,
      f.decide w.store user answer channel = .ok (.collect p q c) →
      (f.processTurn user answer channel).run w = (r, w') → c.rows ≠ [] →
      f.loadState ((w'.store.scopes user).read p.sectionKey) = .ok s →
      (draftRows s q = c.rows ↔ q.qid.isTrimmed = true) := by
  refine ⟨fun section_ process sessionId position done w' hprocess hrun => ?_,
    fun p q c answer channel r w' s hdecide hrun hrows hs => ?_⟩
  · rw [run_recordCompletion] at hrun
    cases hrun
    have known : (f.catalog.process? section_).isSome = true := by rw [hprocess]; rfl
    have hcontains := contains_completing_iff loaded.accepted sound.regular known
      ⟨section_, position.filledOr (.str CompletionRecord.mainPosition), sessionId, .str w.now⟩
    refine ⟨hcontains, fun trimmed fields hnext => ?_, fun fields => ?_⟩
    · have hfree := (Routing.next_eq_some hnext).2.2
      rw [hcontains.2 trimmed] at hfree
      cases hfree
    · rw [Routing.isEligible, hprocess, Bool.eq_iff_iff.2 hcontains]
  · rw [draftRows_of_loadState loaded usable spares hs]
    change pending w'.store user p q = _ ↔ _
    rw [pending_of_collect loaded usable spares sound hdecide hrun]
    cases q.qid.isTrimmed with
    | true => exact iff_of_true rfl rfl
    | false => exact iff_of_false (fun h => hrows h.symm) Bool.false_ne_true

/-- The rows that are kept for a question with a trimmed identifier are found in the next turn, and
the section with a trimmed key is not entered again after it was completed. -/
theorem found_again_flat : ∃ (c : Catalog) (p : Pointer) (q : Question) (kept : Collection)
    (s : State) (w' : World MemoryStore) (done : List Json), c.Loaded ∧ kept.rows ≠ [] ∧
    (Flow.mk c none).decide pendingRooms.store "u1" (.str "Kitchen, 12") .null =
      .ok (.collect p q kept) ∧
    (Flow.mk c none).loadState (((said c ["Kitchen, 12"]).store.scopes "u1").read p.sectionKey) =
      .ok s ∧
    draftRows s q = kept.rows ∧
    (recordCompletion "u1" (.str "01") .null .null).run pendingRooms = (.ok done, w') ∧
    (w'.store.completed "u1").contains (.str "01") = true ∧
    ∀ fields, Routing.next c (w'.store.completed "u1") fields ≠ some (.str "01") := by
  have evaluated : Outcome.Gives (Catalog.ofJson (flat "rooms" (.obj [])) "catalog.json") fun e =>
      Outcome.Gives e.1.usable (fun _ => True) ∧ e.1.SparesDraft ∧
      (e.1.process? (.str "01")).isSome = true ∧
      Outcome.Gives (deciding e.1 [] "Kitchen, 12") (·.Keeping fun p q kept =>
        kept.rows.isEmpty = false ∧ q.qid.isTrimmed = true ∧
        Outcome.Gives ((Flow.mk e.1 none).loadState
          (((said e.1 ["Kitchen, 12"]).store.scopes "u1").read p.sectionKey)) fun _ => True) := by
    decide +kernel
  obtain ⟨⟨c, warnings⟩, hc, ⟨_, usable, -⟩, spares, known, _, hdecide, p, q, kept, rfl, hrows,
    trimmed, s, hs, -⟩ := evaluated
  have wellFormed : (flat "rooms" (.obj [])).WellFormed := by simp [flat]
  have loaded : (Flow.mk c none).catalog.Loaded :=
    ⟨_, "catalog.json", warnings, wellFormed, hc⟩
  have hfilled : kept.rows ≠ [] := fun h => by rw [h] at hrows; cases hrows
  obtain ⟨process, hprocess⟩ := Option.isSome_iff_exists.1 known
  have sound : (pendingRooms.store.scopes "u1").Sound (Flow.mk c none).catalog.Reads := .nil
  obtain ⟨hcompleted, hdraft⟩ := found_again_iff loaded usable spares sound
  obtain ⟨hcontains, hnext, -⟩ := hcompleted (.str "01") process .null .null _ _ hprocess rfl
  have htrimmed : (Json.str "01").isTrimmed = true := by decide
  exact ⟨c, p, q, kept, s, _, _, loaded, hfilled, hdecide, hs,
    (hdraft p q kept _ _ _ _ s hdecide rfl hfilled hs).2 trimmed, rfl, hcontains.2 htrimmed,
    hnext htrimmed⟩

/-- A catalog with one question, in a section whose key begins with a blank. -/
def indented : Json :=
  .obj [
    ("questions", .arr [.obj [("qid", .str "Q1"), ("field_key", .str "name"),
      ("prompt", .str "Name?")]]),
    ("stages", .arr [.obj [("stage_key", .str "s"), ("question_ids", .arr [.str "Q1"])]]),
    ("processes", .arr [.obj [("process_key", .str " 01"), ("stage_keys", .arr [.str "s"])]])]

/-- What a conversation in this section leaves: its question is asked and answered. -/
def conversed (c : Catalog) : World MemoryStore :=
  (((Flow.mk c none).processTurn "u1" (.str "Ann") .null).run
    (((Flow.mk c none).processTurn "u1" .null .null).run untouchedWorld).2).2

/-- After such a section was completed, routing leads into it again. -/
theorem entered_again_indented : ∃ c : Catalog, c.Accepted ∧
    (conversed c).store.finished "u1" = [.str " 01"] ∧
    (conversed c).store.completed "u1" = [.str "01"] ∧
    Routing.next c ((conversed c).store.completed "u1")
      (((conversed c).store.scopes "u1").read flowScope) = some (.str " 01") := by
  have evaluated : Outcome.Gives (Catalog.ofJson indented "catalog.json") fun e =>
      (conversed e.1).store.finished "u1" = [.str " 01"] ∧
      (conversed e.1).store.completed "u1" = [.str "01"] ∧
      ∃ k ∈ Routing.next e.1 ((conversed e.1).store.completed "u1")
        (((conversed e.1).store.scopes "u1").read flowScope), k = .str " 01" := by
    decide +kernel
  obtain ⟨⟨c, warnings⟩, hc, hfinished, hcompleted, _, hnext, rfl⟩ := evaluated
  exact ⟨c, ⟨_, "catalog.json", warnings, hc⟩, hfinished, hcompleted, hnext⟩

end Flow

end Questionnaire
