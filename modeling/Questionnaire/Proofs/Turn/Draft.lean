import Questionnaire.Proofs.Answer.Rows
import Questionnaire.Proofs.Catalog.Processes
import Questionnaire.Proofs.Text.Trimming
import Questionnaire.Proofs.Turn.Document

/-!
# The draft of a table

The rows of a table are kept in two fields of its section until the table is closed: the identifier
of its question, and the rows in written form.  The next turn finds them when the identifier is a
text without blanks around it, for it is compared after the blanks around it are taken away.

## Main Definitions

* `Flow.pendingRows` - the rows of the draft that fields hold for a question
* `Catalog.SparesDraft` - nothing but turns stands in the place of a draft
* `Answer.messageRows` - the rows that a message adds to a table

## Main Statements

* `Flow.draftRows_of_loadState` - a turn finds the draft that is stored
* `Flow.pendingRows_of_draft`, `Flow.isTrimmed_of_pendingRows` - when a draft is found again
* `Flow.taking_cases` - a message adds its rows at the end of the draft, or closes the table
-/

namespace Questionnaire

/-- The fields that hold the draft of a table. -/
def Bookkeeping.draftKeys : List Json := [draftQuestion, draftRows]

/-- Neither a default nor a computed variable stands in the place of a draft. -/
structure Catalog.SparesDraft (c : Catalog) : Prop where
  /-- No default is one of a draft. -/
  defaults : ∀ key ∈ Bookkeeping.draftKeys, ∀ d ∈ c.defaults, (d.1 == key) = false
  /-- No variable is computed into a draft. -/
  computed : ∀ key ∈ Bookkeeping.draftKeys, ∀ v ∈ c.computedVars, (v.target == key) = false

instance (c : Catalog) : Decidable c.SparesDraft :=
  decidable_of_iff
    ((∀ key ∈ Bookkeeping.draftKeys, ∀ d ∈ c.defaults, (d.1 == key) = false) ∧
      ∀ key ∈ Bookkeeping.draftKeys, ∀ v ∈ c.computedVars, (v.target == key) = false)
    ⟨fun h => ⟨h.1, h.2⟩, fun h => ⟨h.defaults, h.computed⟩⟩

namespace Json

/-- A trimmed text equals the values that are the same text without blanks around them. -/
theorem isTrimmed_of_equal_trim {s : String} {v : Json}
    (h : (Json.str (Text.trim s)).equal v = true) : v.isTrimmed = true := by
  cases v with
  | str t =>
    cases (Json.beq_str _ _).1 h
    exact beq_iff_eq.2 (Text.trim_trim s)
  | _ => cases h

/-- A value is shown as itself, without blanks around it, when it is such a text. -/
theorem equal_trim_display (v : Json) :
    (Json.str (Text.trim (v.filledOr (.str "")).display)).equal v = v.isTrimmed := by
  cases htrimmed : v.isTrimmed with
  | false =>
    refine Bool.eq_false_iff.2 fun h => ?_
    rw [isTrimmed_of_equal_trim h] at htrimmed
    cases htrimmed
  | true =>
    cases v with
    | str s =>
      have hshown : ((Json.str s).filledOr (.str "")).display = s := by
        by_cases hempty : s = ""
        · rw [hempty]
          rfl
        · exact congrArg Json.display (if_pos (bne_iff_ne.2 hempty))
      rw [hshown, eq_of_beq htrimmed]
      exact (Json.beq_str _ _).2 rfl
    | _ => cases htrimmed

end Json

namespace Flow

/-! ## Finding a draft -/

/-- The rows of the draft that fields hold for a question. -/
def pendingRows (fields : Fields) (q : Question) : List Json :=
  let qid := Text.trim
    (((Assoc.valueAt? Bookkeeping.draftQuestion fields).getD .null).filledOr (.str "")).display
  match Json.decoded (.arr []) ((Assoc.valueAt? Bookkeeping.draftRows fields).getD .null) with
  | .arr rows => if (Json.str qid).equal q.qid then rows else []
  | _ => []

variable {q : Question} {fields fields' : Fields} {rows : List Json} {text : String}

theorem draftRows_eq (s : State) (q : Question) : draftRows s q = pendingRows s.values q := rfl

theorem pendingRows_congr
    (h : ∀ key ∈ Bookkeeping.draftKeys,
      Assoc.valueAt? key fields = Assoc.valueAt? key fields') (q : Question) :
    pendingRows fields q = pendingRows fields' q := by
  obtain ⟨hqid, hrows, -⟩ : _ ∧ _ ∧ True := by simpa [Bookkeeping.draftKeys] using h
  unfold pendingRows
  rw [hqid, hrows]

/-- A draft is found again under an identifier that is a text without blanks around it. -/
theorem pendingRows_of_draft
    (hqid : Assoc.valueAt? Bookkeeping.draftQuestion fields = some q.qid)
    (hrows : Assoc.valueAt? Bookkeeping.draftRows fields = some (.str text))
    (hdump : (Json.arr rows).dump = .ok text) (wellFormed : (Json.arr rows).WellFormed) :
    pendingRows fields q = if q.qid.isTrimmed then rows else [] := by
  obtain ⟨hlength, rfl⟩ := Json.dump_eq_ok_iff.1 hdump
  unfold pendingRows
  rw [hqid, hrows, Option.getD_some, Option.getD_some,
    Json.decoded_write wellFormed hlength _ (Json.trim_write_arr rows)]
  dsimp only
  rw [Json.equal_trim_display]

/-- A draft that was emptied has no rows. -/
theorem pendingRows_of_cleared
    (hrows : Assoc.valueAt? Bookkeeping.draftRows fields = some (.str "")) (q : Question) :
    pendingRows fields q = [] := by
  have hdecoded : Json.decoded (.arr []) (.str "") = .arr [] := rfl
  unfold pendingRows
  rw [hrows, Option.getD_some, hdecoded]
  exact ite_self _

/-- Rows are only found for a question whose identifier is a text without blanks around it. -/
theorem isTrimmed_of_pendingRows (h : pendingRows fields q ≠ []) : q.qid.isTrimmed = true := by
  unfold pendingRows at h
  dsimp only at h
  split at h
  · split at h
    · rename_i hsame
      exact Json.isTrimmed_of_equal_trim hsame
    · exact absurd rfl h
  · exact absurd rfl h

/-- After a draft was kept in a scope, its rows are found there, unless the identifier is no trimmed
text. -/
theorem pendingRows_write_draftPatch {scopes : Scopes} {scope : Json} {c : Collection}
    (hscope : scope.isKey = true) (regular : scopes.Regular)
    (hdump : (Json.arr c.rows).dump = .ok c.written) (wellFormed : (Json.arr c.rows).WellFormed) :
    pendingRows ((scopes.write scope (draftPatch q c)).read scope) q =
      if q.qid.isTrimmed then c.rows else [] := by
  cases htrimmed : q.qid.isTrimmed with
  | false =>
    by_contra hfound
    rw [isTrimmed_of_pendingRows hfound] at htrimmed
    cases htrimmed
  | true =>
    have hread := Scopes.valueAt?_read_write hscope regular (regular_draftPatch q c)
    have hqid : Scopes.isWritten q.qid = true := by
      cases hq : q.qid with
      | null => rw [hq] at htrimmed; cases htrimmed
      | _ => rfl
    refine (pendingRows_of_draft ?_ ?_ hdump wellFormed).trans ?_
    · rw [hread]
      show (Option.filter _ (some q.qid)).or _ = _
      rw [Option.filter_some, if_pos hqid, Option.some_or]
    · rw [hread]
      rfl
    · rw [htrimmed]

/-- Where nothing else stands in the place of a draft, a turn finds the draft that is stored. -/
theorem draftRows_of_loadState {f : Flow} (loaded : f.catalog.Loaded)
    (usable : f.catalog.usable = .ok ()) (spares : f.catalog.SparesDraft) {s : State}
    (h : f.loadState fields = .ok s) (q : Question) : draftRows s q = pendingRows fields q := by
  obtain ⟨-, hvalues, -⟩ := State.ofFields_spec h
  rw [draftRows_eq]
  refine pendingRows_congr (fun key hkey => ?_) q
  have hdefault : Assoc.valueAt? key f.catalog.defaults = none :=
    Assoc.valueAt?_eq_none (spares.defaults key hkey)
  rw [State.valueAt?_compute (Catalog.isKey_of_usable usable) hvalues (spares.computed key hkey),
    State.completed, State.valueAt?_withDefaults loaded.defaults.1, hdefault, Option.none_or,
    ite_self]

/-! ## Adding to a draft -/

/-- The rows that a message adds to a table: none if it closes the table or has no rows. -/
def messageRows (q : Question) (message : String) : List Json :=
  if Answer.closesTable message then []
  else
    match Answer.readRows? message q.tableColumns with
    | .ok (some rows) => rows.map fun row => .obj (Fields.toObject row)
    | _ => []

variable {f : Flow} {s s' : State} {c : Collection} {message : String} {applied : Applied}
  {channel : Json}

theorem wellFormed_messageRows {names : List String} (h : q.tableColumns = names.map .str)
    (message : String) : ∀ v ∈ messageRows q message, v.WellFormed := by
  unfold messageRows
  rw [h]
  split
  · simp
  · split
    · rename_i rows hrows
      intro v hv
      obtain ⟨row, hrow, rfl⟩ := List.mem_map.1 hv
      exact ((Answer.isRow_of_readRows? hrows).2 row hrow).wellFormed
    · simp

/-- A message adds objects. -/
theorem isObject_messageRows {v : Json} (h : v ∈ messageRows q message) : ∃ o, v = .obj o := by
  unfold messageRows at h
  split at h
  · cases h
  · split at h
    · obtain ⟨row, -, rfl⟩ := List.mem_map.1 h
      exact ⟨_, rfl⟩
    · cases h

/-- A message to a question about a table goes into the draft, with its rows at the end, or closes a
table that has rows, and these are the value. -/
theorem taking_cases {taken : Taken} (table : q.isTable = true)
    (h : f.taking s q message channel = .ok taken) :
    (∃ c, taken = .collected c ∧ c.rows = draftRows s q ++ messageRows q message ∧
      (Json.arr c.rows).dump = .ok c.written ∧ ∀ v ∈ messageRows q message, v.WellFormed) ∨
    (∃ s' applied, taken = .applied s' applied ∧ messageRows q message = [] ∧
      draftRows s q ≠ [] ∧
      s.applyValue f.catalog q (.arr (draftRows s q)) = .ok (s', applied)) := by
  unfold taking at h
  rw [if_pos table] at h
  obtain ⟨example_, hexample, h⟩ := Outcome.bind_eq_ok_iff.1 h
  obtain ⟨view, -, h⟩ := Outcome.bind_eq_ok_iff.1 h
  obtain ⟨names, hnames⟩ := Answer.exists_names_of_exampleRow hexample
  have hwellFormed := wellFormed_messageRows hnames message
  split at h
  · rename_i hcloses
    have hnone : messageRows q message = [] := if_pos hcloses
    split at h
    · obtain ⟨written, hwritten, h⟩ := Outcome.bind_eq_ok_iff.1 h
      cases h
      exact .inl ⟨_, rfl, by rw [hnone, List.append_nil], hwritten, hwellFormed⟩
    · rename_i hfilled
      obtain ⟨r, hr, h⟩ := Outcome.bind_eq_ok_iff.1 h
      cases h
      exact .inr ⟨r.1, r.2, rfl, hnone, fun hempty => hfilled (List.isEmpty_iff.2 hempty), hr⟩
  · rename_i hopen
    obtain ⟨more, hmore, h⟩ := Outcome.bind_eq_ok_iff.1 h
    have hrows : messageRows q message =
        (more.getD []).map fun row => .obj (Fields.toObject row) := by
      unfold messageRows
      rw [if_neg hopen, hmore]
      cases more <;> rfl
    cases more <;> obtain ⟨written, hwritten, h⟩ := Outcome.bind_eq_ok_iff.1 h <;> cases h
    · exact .inl ⟨_, rfl, by rw [hrows]; exact (List.append_nil _).symm, hwritten, hwellFormed⟩
    · exact .inl ⟨_, rfl, by rw [hrows]; rfl, hwritten, hwellFormed⟩

theorem isTable_of_collected (h : f.taking s q message channel = .ok (.collected c)) :
    q.isTable = true := by
  by_contra htext
  unfold taking at h
  rw [if_neg htext] at h
  obtain ⟨outcome, -, h⟩ := Outcome.bind_eq_ok_iff.1 h
  cases outcome <;> cases h

/-- A message that goes into a draft adds its rows at the end. -/
theorem rows_of_collected (h : f.taking s q message channel = .ok (.collected c)) :
    c.rows = draftRows s q ++ messageRows q message ∧ (Json.arr c.rows).dump = .ok c.written ∧
      ∀ v ∈ messageRows q message, v.WellFormed := by
  obtain ⟨c', heq, hc⟩ | ⟨s', applied, heq, -⟩ := taking_cases (isTable_of_collected h) h
  · cases heq
    exact hc
  · cases heq

end Flow

end Questionnaire
