import Questionnaire.Proofs.Json.WellFormed
import Questionnaire.Proofs.Regular
import Questionnaire.Proofs.State.Agreement
import Questionnaire.Proofs.Store.Scopes
import Questionnaire.Proofs.Turn.Decision

/-!
# What an answer stores

The patch of an answer holds the answer, what rules derived from it, and bookkeeping.

## Main Statements

* `Flow.valueAt?_answerPatch_eq` - the values in the patch
* `Flow.valueAt?_answerPatch` - the values in the patch besides bookkeeping
* `Flow.valueAt?_answerPatch_of_derived` - the value in the place of a derived one
* `Flow.document_answerPatch` - the document in the patch
-/

namespace Questionnaire

namespace Flow

variable {s : State} {q : Question} {pending : List PendingAttachment} {fired : List FiredHandoff}
  {isLast : Bool} {notes updates : Fields} {applied : Applied}

/-- The fields of the bookkeeping that is written with an answer. -/
def noteKeys (isTable : Bool) : List Json :=
  [Bookkeeping.document, Bookkeeping.transient, Bookkeeping.attachments,
    Bookkeeping.attachmentCount, Bookkeeping.handoffRequired, Bookkeeping.handoffReasons,
    Bookkeeping.complete]
  ++ if isTable then [Bookkeeping.draftQuestion, Bookkeeping.draftRows] else []

theorem owns_noteKeys (isTable : Bool) : ∀ key ∈ noteKeys isTable, Bookkeeping.owns key = true := by
  cases isTable <;> decide

theorem distinct_noteKeys (isTable : Bool) :
    (noteKeys isTable).Pairwise fun k k' => (k == k') = false := by
  cases isTable <;> decide

/-- The bookkeeping of an answer stands under its keys in order. -/
theorem keys_of_bookkeeping (h : bookkeeping s q pending fired isLast = .ok notes) :
    notes.map (·.1) = noteKeys q.isTable := by
  obtain ⟨text, -, h⟩ := Outcome.bind_eq_ok_iff.1 h
  obtain ⟨attachments, -, h⟩ := Outcome.bind_eq_ok_iff.1 h
  obtain ⟨reasons, -, h⟩ := Outcome.bind_eq_ok_iff.1 h
  cases h
  cases q.isTable <;> rfl

/-- What the bookkeeping of an answer holds. -/
theorem bookkeeping_spec (h : bookkeeping s q pending fired isLast = .ok notes) :
    (∀ e ∈ notes, Bookkeeping.owns e.1 = true) ∧ Assoc.Regular notes ∧
      ∃ text, s.document.dump = .ok text ∧
        Assoc.valueAt? Bookkeeping.document notes = some (.str text) := by
  have hkeys := keys_of_bookkeeping h
  obtain ⟨text, htext, h⟩ := Outcome.bind_eq_ok_iff.1 h
  obtain ⟨attachments, -, h⟩ := Outcome.bind_eq_ok_iff.1 h
  obtain ⟨reasons, -, h⟩ := Outcome.bind_eq_ok_iff.1 h
  have howns : ∀ e ∈ notes, Bookkeeping.owns e.1 = true := by
    intro e he
    refine owns_noteKeys q.isTable e.1 ?_
    rw [← hkeys]
    exact List.mem_map_of_mem he
  have hdistinct := distinct_noteKeys q.isTable
  rw [← hkeys] at hdistinct
  refine ⟨howns, ⟨fun e he => Bookkeeping.isKey_of_owns (howns e he),
    List.pairwise_map.1 hdistinct⟩, text, htext, ?_⟩
  cases h
  rfl

/-- What a patch writes stands under the keys of its four sources. -/
theorem key_of_mem_answerPatch {extra : Fields} {e : Json × Json}
    (he : e ∈ answerPatch extra updates applied notes) :
    (∃ d ∈ extra, d.1 = e.1) ∨ (∃ d ∈ updates, d.1 = e.1) ∨ applied.fieldKey = e.1 ∨
      ∃ d ∈ notes, d.1 = e.1 := by
  rcases Assoc.mem_overlay_or_key he with ⟨d, hd, hkey⟩ | ⟨d, hd, hkey⟩
  · rw [← hkey]
    rcases Assoc.mem_overlay_or_key hd with ⟨d', hd', hkey'⟩ | ⟨d', hd', hkey'⟩
    · rw [← hkey']
      rcases Assoc.mem_overlay_or_key hd' with ⟨d'', hd'', -⟩ | hextra
      · cases hd''
      · exact .inl hextra
    · exact .inr (.inl ⟨d', hd', hkey'⟩)
  · rcases List.mem_cons.1 hd with rfl | hd
    · exact .inr (.inr (.inl hkey))
    · exact .inr (.inr (.inr ⟨d, hd, hkey⟩))

theorem regular_answerPatch (applied : Applied) {extra : Fields}
    (hextra : ∀ e ∈ extra, e.1.isKey = true)
    (hnotes : bookkeeping s q pending fired isLast = .ok notes) (hupdates : Assoc.Regular updates)
    (hkey : applied.fieldKey.isKey = true) :
    Assoc.Regular (answerPatch extra updates applied notes) := by
  obtain ⟨-, hregular, -⟩ := bookkeeping_spec hnotes
  refine ((Assoc.Regular.nil.overlay hextra).overlay hupdates.isKey).overlay fun e he => ?_
  rcases List.mem_cons.1 he with rfl | he
  · exact hkey
  · exact hregular.isKey e he

/-- A patch holds bookkeeping first, then the answer, then what was derived from it, and then what
the preparer has added. -/
theorem valueAt?_answerPatch_eq (extra : Fields) (applied : Applied)
    (hnotes : bookkeeping s q pending fired isLast = .ok notes)
    (hupdates : Assoc.Regular updates) (hkey : applied.fieldKey.isKey = true) (key : Json) :
    Assoc.valueAt? key (answerPatch extra updates applied notes) =
      (Assoc.valueAt? key notes).or
        (if applied.fieldKey == key then some applied.value
        else (Assoc.valueAt? key updates).or (Assoc.valueAt? key (Assoc.overlay [] extra))) := by
  obtain ⟨-, hregular, -⟩ := bookkeeping_spec hnotes
  show Assoc.valueAt? key (Assoc.overlay (Assoc.put applied.fieldKey applied.value
    (Assoc.overlay (Assoc.overlay [] extra) updates)) notes) = _
  rw [hregular.valueAt?_overlay, Assoc.valueAt?_put (Json.isName_of_isKey hkey),
    hupdates.valueAt?_overlay]

/-- There is no bookkeeping under another key. -/
theorem valueAt?_bookkeeping (hnotes : bookkeeping s q pending fired isLast = .ok notes)
    {key : Json} (hfree : Bookkeeping.owns key = false) : Assoc.valueAt? key notes = none :=
  Assoc.valueAt?_eq_none fun e he =>
    Bookkeeping.ne_of_owns hfree ((bookkeeping_spec hnotes).1 e he)

/-- Besides bookkeeping a patch holds the answer and what was derived from it. -/
theorem valueAt?_answerPatch (hnotes : bookkeeping s q pending fired isLast = .ok notes)
    (hupdates : Assoc.Regular updates) (hkey : applied.fieldKey.isKey = true) {key : Json}
    (hfree : Bookkeeping.owns key = false) :
    Assoc.valueAt? key (answerPatch [] updates applied notes) =
      if applied.fieldKey == key then some applied.value else Assoc.valueAt? key updates := by
  have hnone : Assoc.valueAt? key (Assoc.overlay [] [] : Fields) = none := rfl
  rw [valueAt?_answerPatch_eq [] applied hnotes hupdates hkey, valueAt?_bookkeeping hnotes hfree,
    Option.none_or, hnone, Option.or_none]

/-- What is written over a derived value: the bookkeeping, or else the answer that was given. -/
def later? (given notes : Fields) (key : Json) : Option Json :=
  (Assoc.valueAt? key notes).or (Assoc.valueAt? key given)

/-- What a patch holds in the place of a derived value. -/
theorem valueAt?_answerPatch_of_derived {extra : Fields}
    (hnotes : bookkeeping s q pending fired isLast = .ok notes)
    (hupdates : Assoc.Regular updates) (hkey : applied.fieldKey.isKey = true) {key v : Json}
    (hderived : Assoc.valueAt? key updates = some v) :
    Assoc.valueAt? key (answerPatch extra updates applied notes) =
      some ((later? [(applied.fieldKey, applied.value)] notes key).getD v) := by
  rw [valueAt?_answerPatch_eq extra applied hnotes hupdates hkey, hderived, later?,
    Assoc.valueAt?_cons, Assoc.valueAt?_nil]
  cases Assoc.valueAt? key notes with
  | some x => rfl
  | none => split <;> rfl

/-- The bookkeeping of an answer holds no absent values. -/
theorem ne_null_of_bookkeeping (h : bookkeeping s q pending fired isLast = .ok notes) :
    ∀ e ∈ notes, e.2 ≠ .null := by
  obtain ⟨text, -, h⟩ := Outcome.bind_eq_ok_iff.1 h
  obtain ⟨attachments, -, h⟩ := Outcome.bind_eq_ok_iff.1 h
  obtain ⟨reasons, -, h⟩ := Outcome.bind_eq_ok_iff.1 h
  cases h
  cases q.isTable <;> simp

theorem wellFormed_of_bookkeeping (h : bookkeeping s q pending fired isLast = .ok notes) :
    ∀ e ∈ notes, e.2.WellFormed := by
  obtain ⟨text, -, h⟩ := Outcome.bind_eq_ok_iff.1 h
  obtain ⟨attachments, -, h⟩ := Outcome.bind_eq_ok_iff.1 h
  obtain ⟨reasons, -, h⟩ := Outcome.bind_eq_ok_iff.1 h
  cases h
  cases q.isTable <;> simp

/-- The bookkeeping of an answer stands before everything else in a patch. -/
theorem valueAt?_answerPatch_of_note (extra updates : Fields) (applied : Applied)
    (hnotes : bookkeeping s q pending fired isLast = .ok notes) {key v : Json}
    (h : Assoc.valueAt? key notes = some v) :
    Assoc.valueAt? key (answerPatch extra updates applied notes) = some v := by
  obtain ⟨-, hregular, -⟩ := bookkeeping_spec hnotes
  show Assoc.valueAt? key (Assoc.overlay (Assoc.put applied.fieldKey applied.value
    (Assoc.overlay (Assoc.overlay [] extra) updates)) notes) = _
  rw [hregular.valueAt?_overlay, h, Option.some_or]

/-- A patch holds the document. -/
theorem document_answerPatch (extra updates : Fields) (applied : Applied)
    (hnotes : bookkeeping s q pending fired isLast = .ok notes) :
    ∃ text, s.document.dump = .ok text ∧
    Assoc.valueAt? Bookkeeping.document (answerPatch extra updates applied notes) =
      some (.str text) := by
  obtain ⟨-, -, text, htext, hfound⟩ := bookkeeping_spec hnotes
  exact ⟨text, htext, valueAt?_answerPatch_of_note extra updates applied hnotes hfound⟩

/-- Unless its field is bookkeeping, a patch holds the answer there, whatever else it holds. -/
theorem valueAt?_answerPatch_answered (extra updates : Fields)
    (hnotes : bookkeeping s q pending fired isLast = .ok notes)
    (hkey : applied.fieldKey.isKey = true) (hfree : Bookkeeping.owns applied.fieldKey = false) :
    Assoc.valueAt? applied.fieldKey (answerPatch extra updates applied notes) =
      some applied.value := by
  obtain ⟨-, hregular, -⟩ := bookkeeping_spec hnotes
  have name := Json.isName_of_isKey hkey
  show Assoc.valueAt? _ (Assoc.overlay (Assoc.put applied.fieldKey applied.value
    (Assoc.overlay (Assoc.overlay [] extra) updates)) notes) = _
  rw [hregular.valueAt?_overlay, valueAt?_bookkeeping hnotes hfree, Option.none_or,
    Assoc.valueAt?_put name, if_pos name.self]

/-- The answer to a question about a table empties the draft. -/
theorem draft_of_bookkeeping (table : q.isTable = true)
    (hnotes : bookkeeping s q pending fired isLast = .ok notes) :
    Assoc.valueAt? Bookkeeping.draftRows notes = some (.str "") := by
  obtain ⟨text, -, hnotes⟩ := Outcome.bind_eq_ok_iff.1 hnotes
  obtain ⟨attachments, -, hnotes⟩ := Outcome.bind_eq_ok_iff.1 hnotes
  obtain ⟨reasons, -, hnotes⟩ := Outcome.bind_eq_ok_iff.1 hnotes
  rw [if_pos table] at hnotes
  cases hnotes
  rfl

/-- The only draft that is written with an answer is the empty one. -/
theorem eq_of_draft_bookkeeping (hnotes : bookkeeping s q pending fired isLast = .ok notes)
    {v : Json} (h : Assoc.valueAt? Bookkeeping.draftRows notes = some v) : v = .str "" := by
  cases htable : q.isTable with
  | true =>
    rw [draft_of_bookkeeping htable hnotes] at h
    exact (Option.some.inj h).symm
  | false =>
    -- without a table nothing is written there
    obtain ⟨e, he, hkey, -⟩ := Assoc.mem_of_valueAt? h
    have hother : ∀ key ∈ noteKeys false, (key == Bookkeeping.draftRows) = false := by decide
    have hmem : e.1 ∈ noteKeys q.isTable := by
      rw [← keys_of_bookkeeping hnotes]
      exact List.mem_map_of_mem he
    rw [hother e.1 (htable ▸ hmem)] at hkey
    cases hkey

/-- A patch writes the field of the answer, with the answer or with bookkeeping. -/
theorem hasKey_written_answerPatch (applied : Applied) {extra : Fields}
    (hextra : ∀ e ∈ extra, e.1.isKey = true)
    (hnotes : bookkeeping s q pending fired isLast = .ok notes) (hupdates : Assoc.Regular updates)
    (hkey : applied.fieldKey.isKey = true) (hvalue : applied.value ≠ .null) :
    Assoc.hasKey applied.fieldKey (Scopes.written (answerPatch extra updates applied notes)) =
      true := by
  have name := Json.isName_of_isKey hkey
  have hfound : ∃ v, v ≠ .null ∧
      Assoc.valueAt? applied.fieldKey (answerPatch extra updates applied notes) = some v := by
    rw [valueAt?_answerPatch_eq extra applied hnotes hupdates hkey, if_pos name.self]
    cases hnote : Assoc.valueAt? applied.fieldKey notes with
    | none => exact ⟨_, hvalue, rfl⟩
    | some v =>
      obtain ⟨e, he, -, rfl⟩ := Assoc.mem_of_valueAt? hnote
      exact ⟨_, ne_null_of_bookkeeping hnotes e he, rfl⟩
  obtain ⟨v, hv, hfound⟩ := hfound
  have hpatch := regular_answerPatch applied hextra hnotes hupdates hkey
  rw [Assoc.hasKey, Scopes.valueAt?_written hpatch, hfound, Option.filter_some,
    if_pos ((Scopes.isWritten_iff v).2 hv)]
  rfl

/-! ## Drafts -/

theorem regular_draftPatch (q : Question) (c : Collection) : Assoc.Regular (draftPatch q c) := by
  have regular : Assoc.Regular [(Bookkeeping.draftQuestion, q.qid)] :=
    Assoc.Regular.nil.put rfl q.qid
  exact regular.put (k := Bookkeeping.draftRows) rfl (.str c.written)

/-- The draft of a table is bookkeeping besides the document and the record of completed
sections. -/
theorem owns_draftPatch {q : Question} {c : Collection} :
    ∀ e ∈ draftPatch q c, Bookkeeping.owns e.1 = true ∧ (e.1 == Bookkeeping.document) = false ∧
      (e.1 == Bookkeeping.completed) = false := by
  intro e he
  have hkeys : ∀ key ∈ [Bookkeeping.draftQuestion, Bookkeeping.draftRows],
      Bookkeeping.owns key = true ∧ (key == Bookkeeping.document) = false ∧
        (key == Bookkeeping.completed) = false := by
    decide
  have hmem : e.1 ∈ (draftPatch q c).map (·.1) := List.mem_map_of_mem he
  exact hkeys e.1 hmem

end Flow

end Questionnaire
