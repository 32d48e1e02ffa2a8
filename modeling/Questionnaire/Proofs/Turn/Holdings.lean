import Questionnaire.Proofs.Answer.Allowed
import Questionnaire.Proofs.Turn.Asked
import Questionnaire.Proofs.Turn.Collecting
import Questionnaire.Proofs.Turn.Interview

/-!
# What the sections hold

Besides bookkeeping the sections hold answers to questions that may be asked, and values that rules
derive.  An answer is one that its question allows.  A default or a computed variable is never
stored, except for rows that a catalog puts in the place of a draft itself.

## Main Definitions

* `Catalog.Allows` - a value may be the answer to a question
* `Catalog.FieldsApart` - the fields of questions are their own
* `Catalog.MayHold` - a value may be stored under a key

## Main Statements

* `Flow.mayHold_of_accept` - what an accepted answer stores
* `Flow.throughout_of_interview` - what the sections hold after any turns and resets
* `Flow.holdings_of_interview` - the same for one value that is stored

## Design Notes

The rows of a table pass through the draft, which is kept as a text.  So what is known of the rows
in a draft is part of what is preserved, and with it that they are well formed: only then does
reading the text give back the rows that were written.
-/

namespace Questionnaire

namespace Catalog

/-! ## What may be stored -/

/-- A default or a rule puts a value in the place of the rows of a draft. -/
def PutsRows (c : Catalog) (v : Json) : Prop :=
  (∃ d ∈ c.defaults, (d.1 == Bookkeeping.draftRows) = true ∧ d.2 = v) ∨
    ∃ r ∈ c.derivedRules, (r.target == Bookkeeping.draftRows) = true ∧ r.value = v

/-- A row of a table is an object, or one of the rows that the catalog itself puts into a draft. -/
def AllowsRow (c : Catalog) (row : Json) : Prop :=
  (∃ o, row = .obj o) ∨
    ∃ v rows, c.PutsRows v ∧ Json.decoded (.arr []) v = .arr rows ∧ row ∈ rows

/-- A value may be the answer to a question: rows if it is about a table, and otherwise a value that
the type of the question allows. -/
def Allows (c : Catalog) (q : Question) (v : Json) : Prop :=
  if q.isTable then ∃ rows, v = .arr rows ∧ rows ≠ [] ∧ ∀ row ∈ rows, c.AllowsRow row else q.Fits v

/-- Different questions have different fields, which are neither bookkeeping nor derived. -/
structure FieldsApart (c : Catalog) : Prop where
  /-- No field is bookkeeping. -/
  free : ∀ e ∈ c.questions, Bookkeeping.owns e.2.fieldKey = false
  /-- The fields of different questions are different. -/
  fields : ∀ e ∈ c.questions, ∀ d ∈ c.questions, (e.1 == d.1) = false →
    (e.2.fieldKey == d.2.fieldKey) = false
  /-- No rule derives the field of a question. -/
  targets : ∀ e ∈ c.questions, ∀ r ∈ c.derivedRules, (e.2.fieldKey == r.target) = false

instance (c : Catalog) : Decidable c.FieldsApart :=
  decidable_of_iff
    ((∀ e ∈ c.questions, Bookkeeping.owns e.2.fieldKey = false) ∧
      (∀ e ∈ c.questions, ∀ d ∈ c.questions, (e.1 == d.1) = false →
        (e.2.fieldKey == d.2.fieldKey) = false) ∧
      ∀ e ∈ c.questions, ∀ r ∈ c.derivedRules, (e.2.fieldKey == r.target) = false)
    ⟨fun h => ⟨h.1, h.2.1, h.2.2⟩, fun h => ⟨h.free, h.fields, h.targets⟩⟩

/-- A key is the field of a question that may be asked, or derived by a rule. -/
def Writes (c : Catalog) (key : Json) : Prop :=
  (∃ q, c.Asks q ∧ (q.fieldKey == key) = true) ∨ ∃ r ∈ c.derivedRules, (r.target == key) = true

/-- A value may be stored under a key. -/
structure MayHold (c : Catalog) (key v : Json) : Prop where
  /-- Besides bookkeeping the key is one that answers or rules write. -/
  writes : Bookkeeping.owns key = false → c.Writes key
  /-- The answer to a question is one that it allows. -/
  allows : ∀ q, c.Holds q → (q.fieldKey == key) = true → c.Allows q v
  /-- A draft is well formed. -/
  wellFormed : key = Bookkeeping.draftRows → v.WellFormed
  /-- A draft holds rows of tables. -/
  rows : key = Bookkeeping.draftRows → ∀ rows, Json.decoded (.arr []) v = .arr rows →
    ∀ row ∈ rows, c.AllowsRow row

variable {c : Catalog} {q q' : Question} {key v : Json}

namespace FieldsApart

theorem ne_of_owns (apart : c.FieldsApart) (hq : c.Holds q) (howns : Bookkeeping.owns key = true) :
    (q.fieldKey == key) = false := by
  obtain ⟨e, he, rfl⟩ := hq
  refine Bool.eq_false_iff.2 fun hsame => ?_
  have hfree := apart.free e he
  rw [Bookkeeping.owns_of_beq hsame howns] at hfree
  cases hfree

/-- A question is known by its field. -/
theorem eq_of_beq (apart : c.FieldsApart) (filed : Assoc.FiledBy Question.qid c.questions)
    (hq : c.Holds q) (hq' : c.Holds q') (h : (q'.fieldKey == q.fieldKey) = true) : q' = q := by
  obtain ⟨e, he, rfl⟩ := hq
  obtain ⟨d, hd, rfl⟩ := hq'
  refine filed.eq_of_beq hd he ?_
  by_contra hne
  rw [apart.fields d hd e he (Bool.eq_false_iff.2 hne)] at h
  cases h

end FieldsApart

namespace MayHold

variable (apart : c.FieldsApart)

include apart

/-- Bookkeeping besides the draft. -/
theorem of_owns (howns : Bookkeeping.owns key = true)
    (hother : (key == Bookkeeping.draftRows) = false) (v : Json) : c.MayHold key v := by
  refine ⟨fun hfree => ?_, fun q hq hsame => ?_, fun hkey => ?_, fun hkey => ?_⟩
  · rw [howns] at hfree
    cases hfree
  · rw [apart.ne_of_owns hq howns] at hsame
    cases hsame
  all_goals
    rw [hkey] at hother
    exact absurd hother (by decide)

/-- A draft whose rows are known. -/
theorem of_rows (wellFormed : v.WellFormed)
    (hrows : ∀ rows, Json.decoded (.arr []) v = .arr rows → ∀ row ∈ rows, c.AllowsRow row) :
    c.MayHold Bookkeeping.draftRows v where
  writes hfree := absurd hfree (by decide)
  allows q hq hsame := by
    rw [apart.ne_of_owns hq (by decide)] at hsame
    cases hsame
  wellFormed _ := wellFormed
  rows _ := hrows

/-- The answer to a question that may be asked. -/
theorem of_answer (filed : Assoc.FiledBy Question.qid c.questions) (asks : c.Asks q)
    (hkey : q.fieldKey.isKey = true) (hsame : (q.fieldKey == key) = true) (allows : c.Allows q v) :
    c.MayHold key v := by
  have hother : key ≠ Bookkeeping.draftRows := by
    rintro rfl
    rw [apart.ne_of_owns asks.holds (by decide)] at hsame
    cases hsame
  refine ⟨fun _ => .inl ⟨q, asks, hsame⟩, fun q' hq' hsame' => ?_, fun h => absurd h hother,
    fun h => absurd h hother⟩
  rw [apart.eq_of_beq filed asks.holds hq' ((Json.isName_of_isKey hkey).beq_of_beq hsame hsame')]
  exact allows

/-- A value that a rule derives. -/
theorem of_rule (loaded : c.Loaded) {r : DerivedRule} (hr : r ∈ c.derivedRules)
    (hkey : r.target.isKey = true) (hsame : (r.target == key) = true) :
    c.MayHold key r.value := by
  refine ⟨fun _ => .inr ⟨r, hr, hsame⟩, fun q hq hq' => ?_, fun _ => loaded.rules r hr,
    fun h rows hrows row hrow => ?_⟩
  · obtain ⟨e, he, rfl⟩ := hq
    have htarget := (Json.isName_of_isKey hkey).beq_of_beq hsame hq'
    rw [apart.targets e he r hr] at htarget
    cases htarget
  · exact .inr ⟨r.value, rows, .inr ⟨r, hr, h ▸ hsame, rfl⟩, hrows, hrow⟩

end MayHold

end Catalog

namespace Flow

variable {f : Flow} {user text : String} {answer channel : Json} {w w' : World MemoryStore}
  {m : MemoryStore} {p : Pointer} {q : Question} {a : Acceptance} {s s' : State}
  {applied : Applied} {past : List Reply} {r : Except Fault TurnResult} {scopes : Scopes}
  {section_ : Json}

section

variable (loaded : f.catalog.Loaded)

include loaded

/-- A draft that is loaded holds rows of tables, which are well formed. -/
theorem allowsRow_of_loadState (holdings : scopes.Throughout f.catalog.MayHold)
    (h : f.loadState (scopes.read section_) = .ok s) (q : Question) :
    (∀ row ∈ draftRows s q, f.catalog.AllowsRow row) ∧ (Json.arr (draftRows s q)).WellFormed := by
  have hvalues := (State.ofFields_spec h).2.1
  have stored {v : Json}
      (hv : Assoc.valueAt? Bookkeeping.draftRows (scopes.read section_) = some v) :
      f.catalog.MayHold Bookkeeping.draftRows v := holdings.read section_ hv
  refine ⟨fun row hrow => ?_,
    (isValue_draftRows loaded (fun v hv => (stored hv).wellFormed rfl) hvalues q).wellFormed⟩
  obtain ⟨v, rows, hfound, hrows, hmem⟩ := exists_decoded_of_draftRows hvalues hrow
  rcases State.valueAt?_completed_or loaded.defaults.1 hfound with hdefault | hstored
  · obtain ⟨d, hd, hkey, hvalue⟩ := Assoc.mem_of_valueAt? hdefault
    exact .inr ⟨v, rows, .inl ⟨d, hd, hkey, hvalue⟩, hrows, hmem⟩
  · exact (stored hstored).rows rfl rows hrows row hmem

/-- An answer that is applied is one that its question allows. -/
theorem allows_of_taking (holdings : scopes.Throughout f.catalog.MayHold)
    (hs : f.loadState (scopes.read section_) = .ok s)
    (h : f.taking s q text channel = .ok (.applied s' applied)) :
    f.catalog.Allows q applied.value := by
  unfold Catalog.Allows
  cases htable : q.isTable with
  | false =>
    obtain ⟨v, happly, hread⟩ := read_of_taking htable h
    rw [if_neg Bool.false_ne_true, (applied_of_applyValue happly).2.1]
    exact Answer.fits_of_read hread
  | true =>
    rw [if_pos rfl]
    obtain ⟨c, heq, -⟩ | ⟨s₁, applied₁, heq, -, hne, happly⟩ := taking_cases htable h
    · cases heq
    · cases heq
      exact ⟨draftRows s q, (applied_of_applyValue happly).2.1, hne,
        (allowsRow_of_loadState loaded holdings hs q).1⟩

end

/-- The bookkeeping of an answer may be stored. -/
theorem mayHold_of_note {c : Catalog} (apart : c.FieldsApart)
    {pending : List PendingAttachment} {fired : List FiredHandoff} {isLast : Bool} {notes : Fields}
    (hnotes : bookkeeping s q pending fired isLast = .ok notes) {key v : Json}
    (h : Assoc.valueAt? key notes = some v) : c.MayHold key v := by
  cases hdraft : key == Bookkeeping.draftRows with
  | true =>
    cases (Json.beq_str _ _).1 hdraft
    rw [eq_of_draft_bookkeeping hnotes h]
    refine .of_rows apart (.str "") fun rows hrows row hrow => ?_
    cases hrows
    cases hrow
  | false =>
    obtain ⟨e, he, hkey, rfl⟩ := Assoc.mem_of_valueAt? h
    have howns := (bookkeeping_spec hnotes).1 e he
    rw [Bookkeeping.eq_of_beq howns hkey] at hdraft ⊢
    exact .of_owns apart howns hdraft e.2

section

variable (loaded : f.catalog.Loaded) (plain : f.preparer = none) (apart : f.catalog.FieldsApart)

include loaded plain apart

/-- What an accepted answer stores may be stored. -/
theorem mayHold_of_accept (holdings : (m.scopes user).Throughout f.catalog.MayHold)
    (asks : f.catalog.Asks q) (accepts : f.Accepts m user p q answer channel a s text s' applied)
    {key v : Json} (h : Assoc.valueAt? key a.patch = some v) : f.catalog.MayHold key v := by
  obtain ⟨derived, pending, notes, passed⟩ := passed_of_judge accepts.judged
  obtain ⟨s₁, derives⟩ := State.derives_of_applyDerived passed.rules
  obtain ⟨v', happly, -⟩ := applyValue_of_taking accepts.taken
  obtain ⟨hfield, -, hisKey⟩ := applied_of_applyValue happly
  have hextra : (f.prepared q s text).extra = [] := by rw [prepared, plain]
  rw [passed.patch, hextra, valueAt?_answerPatch_eq [] applied passed.written derives.regular
    (hfield ▸ hisKey)] at h
  -- bookkeeping, or else the answer, or else what rules derived
  rcases Option.or_eq_some_iff.1 h with hnote | ⟨-, h⟩
  · exact mayHold_of_note apart passed.written hnote
  · split at h
    · rename_i hsame
      rw [← Option.some.inj h]
      exact .of_answer apart (Catalog.filedBy_questions loaded.accepted) asks hisKey
        (hfield ▸ hsame) (allows_of_taking loaded holdings accepts.loaded accepts.taken)
    · have hnone : Assoc.valueAt? key (Assoc.overlay [] [] : Fields) = none := rfl
      rw [hnone, Option.or_none] at h
      obtain ⟨rule, hrule, hkey, hsame, rfl⟩ := derives.source key v h
      exact .of_rule apart loaded hrule hkey hsame

omit plain in
/-- What a draft keeps may be stored. -/
theorem mayHold_of_collect {c : Collection}
    (holdings : (m.scopes user).Throughout f.catalog.MayHold)
    (hdecide : f.decide m user answer channel = .ok (.collect p q c)) {key v : Json}
    (h : Assoc.valueAt? key (draftPatch q c) = some v) : f.catalog.MayHold key v := by
  obtain ⟨s, text, hears, -, htaken⟩ := taking_of_collect hdecide
  obtain ⟨hrows, hdump, hheard⟩ := rows_of_collected htaken
  obtain ⟨hdraft, wellFormed⟩ := allowsRow_of_loadState loaded holdings hears.loaded q
  obtain ⟨e, he, hkey, rfl⟩ := Assoc.mem_of_valueAt? h
  rcases List.mem_cons.1 he with rfl | he
  · cases Json.eq_of_str_beq hkey
    exact .of_owns apart (by decide) (by decide) _
  · cases List.mem_singleton.1 he
    cases Json.eq_of_str_beq hkey
    refine .of_rows apart (.str c.written) fun rows hdecoded row hrow => ?_
    -- reading the text gives back the rows that were written
    have hwritten : (Json.arr c.rows).WellFormed := by
      rw [hrows, Json.wellFormed_arr_iff, List.forall_mem_append]
      exact ⟨Json.wellFormed_arr_iff.1 wellFormed, hheard⟩
    obtain ⟨hlength, htext⟩ := Json.dump_eq_ok_iff.1 hdump
    rw [htext, Json.decoded_write hwritten hlength _ (Json.trim_write_arr c.rows)] at hdecoded
    cases hdecoded
    rw [hrows] at hrow
    rcases List.mem_append.1 hrow with hrow | hrow
    · exact hdraft row hrow
    · exact .inl (isObject_messageRows hrow)

/-- What a decision writes may be stored. -/
theorem throughout_of_decide {d : Decision} (stands : StandsAsked f.catalog m user)
    (holdings : (m.scopes user).Throughout f.catalog.MayHold)
    (hdecide : f.decide m user answer channel = .ok d) :
    (d.stores (m.scopes user)).Throughout f.catalog.MayHold := by
  have grounded := grounded_of_decide hdecide
  cases d with
  | closed => exact holdings
  | begin isLost => exact holdings
  | redirect p s e => exact holdings
  | depart p s => exact holdings
  | reask p q => exact holdings
  | reject p stored q error =>
    rw [Decision.stores]
    split
    · have regular : Assoc.Regular [(Bookkeeping.transient, Json.str "")] :=
        Assoc.Regular.nil.put rfl _
      refine holdings.write grounded.1.isKey regular fun key v h => ?_
      obtain ⟨e, he, hkey, -⟩ := Assoc.mem_of_valueAt? h
      rw [List.mem_singleton.1 he] at hkey
      cases Json.eq_of_str_beq hkey
      exact .of_owns apart (by decide) (by decide) v
    · exact holdings
  | collect p q c =>
    exact holdings.write grounded.1.isKey (regular_draftPatch q c) fun key v h =>
      mayHold_of_collect loaded apart holdings hdecide h
  | accept p q a =>
    obtain ⟨hstands, hquestion, s, text, s', applied, accepts⟩ := grounded
    have asks := stands.asks (Catalog.filedBy_questions loaded.accepted) hstands hquestion
    exact holdings.write hstands.isKey ((addsNamed_of_plain plain).regular_patch accepts)
      fun key v h => mayHold_of_accept loaded plain apart holdings asks accepts h

omit loaded plain in
/-- A record of completed sections may be stored. -/
theorem ignoresRecord_mayHold :
    Scopes.IgnoresRecord (Scopes.Throughout f.catalog.MayHold) := by
  intro scopes done holdings
  refine holdings.write isKey_flowScope (Scopes.regular_record done) fun key v h => ?_
  obtain ⟨e, he, hkey, -⟩ := Assoc.mem_of_valueAt? h
  rw [List.mem_singleton.1 he] at hkey
  cases Json.eq_of_str_beq hkey
  exact .of_owns apart (by decide) (by decide) v

/-- Every turn stores only what may be stored. -/
theorem throughout_of_processTurn (stands : StandsAsked f.catalog w.store user)
    (holdings : (w.store.scopes user).Throughout f.catalog.MayHold)
    (h : (f.processTurn user answer channel).run w = (r, w')) :
    (w'.store.scopes user).Throughout f.catalog.MayHold := by
  obtain ⟨e, -, -, rfl⟩ | ⟨d, hdecide, -⟩ := turn_cases h
  · exact holdings
  · exact scopes_of_processTurn (ignoresRecord_mayHold apart) hdecide
      (throughout_of_decide loaded plain apart stands holdings hdecide) h

/-- After any turns and resets the sections hold only what may be stored, and the pointer stands
where a question may be asked. -/
theorem throughout_of_interview (talk : f.Interview user past w) :
    (w.store.scopes user).Throughout f.catalog.MayHold ∧
      StandsAsked f.catalog w.store user := by
  induction talk with
  | start w h =>
    rw [h]
    exact ⟨.nil, standsAsked_of_none rfl⟩
  | @turn past w w' answer channel now r talk h ih =>
    exact ⟨throughout_of_processTurn (w := { w with now := now }) loaded plain apart ih.2 ih.1 h,
      standsAsked_of_processTurn (w := { w with now := now }) ih.2 h⟩
  | other talk hother h ih =>
    have elsewhere := elsewhere_of_processTurn h
    rw [elsewhere.scopes user hother.symm]
    exact ⟨ih.1, standsAsked_congr (elsewhere.pointer user hother.symm) ih.2⟩
  | @reset _ _ _ other _ talk h ih =>
    cases congrArg Prod.snd h
    exact ⟨ih.1, standsAsked_deletePointer ih.2 other⟩

/-- After any turns and resets, what a section holds besides bookkeeping stands under the field of a
question that may be asked, or under one that a rule derives; and where it is the answer to a
question, it is one that the question allows. -/
theorem holdings_of_interview (talk : f.Interview user past w) :
    ∀ scope ∈ w.store.scopes user, ∀ entry ∈ scope.2, Bookkeeping.owns entry.1 = false →
      ((∃ q, f.catalog.Asks q ∧ (q.fieldKey == entry.1) = true) ∨
        ∃ rule ∈ f.catalog.derivedRules, (rule.target == entry.1) = true) ∧
      ∀ q, f.catalog.Holds q → (q.fieldKey == entry.1) = true → f.catalog.Allows q entry.2 := by
  obtain ⟨holdings, -⟩ := throughout_of_interview loaded plain apart talk
  intro scope hscope entry hentry hfree
  have mayHold := holdings.values scope hscope entry.1 entry.2
    ((holdings.regular scope hscope).valueAt?_of_mem hentry)
  exact ⟨mayHold.writes hfree, mayHold.allows⟩

end

/-- The moves of a user who says one room. -/
def furnishing : List (Option Json) :=
  [some .null, some (.str "Kitchen, 12"), some (.str "done")]

/-- The room that is said is stored as an object. -/
theorem holdings_of_interview_flat : ∃ (c : Catalog) (past : List Reply) (w : World MemoryStore)
    (scope : Json × Fields) (entry : Json × Json) (q : Question), c.Loaded ∧ c.FieldsApart ∧
    (Flow.mk c none).Interview "u1" past w ∧ scope ∈ w.store.scopes "u1" ∧ entry ∈ scope.2 ∧
    Bookkeeping.owns entry.1 = false ∧ q.isTable = true ∧ (q.fieldKey == entry.1) = true ∧
    c.Allows q entry.2 := by
  have evaluated : Outcome.Gives (Catalog.ofJson (flat "rooms" (.obj [])) "catalog.json") fun e =>
      e.1.FieldsApart ∧
      ∃ scope ∈ (rehearsed e.1 furnishing).2.store.scopes "u1",
        ∃ entry ∈ scope.2, Bookkeeping.owns entry.1 = false ∧
          ∃ d ∈ e.1.questions, d.2.isTable = true ∧ (d.2.fieldKey == entry.1) = true := by
    decide +kernel
  obtain ⟨⟨c, warnings⟩, hc, apart, scope, hscope, entry, hentry, hfree, d, hd, table, hfield⟩ :=
    evaluated
  have wellFormed : (flat "rooms" (.obj [])).WellFormed := by simp [flat]
  have loaded : (Flow.mk c none).catalog.Loaded := ⟨_, "catalog.json", warnings, wellFormed, hc⟩
  have talk := interview_rehearsed c furnishing
  obtain ⟨-, allows⟩ :=
    holdings_of_interview loaded rfl apart talk scope hscope entry hentry hfree
  exact ⟨c, _, _, scope, entry, d.2, loaded, apart, talk, hscope, hentry, hfree, table, hfield,
    allows d.2 ⟨d, hd, rfl⟩ hfield⟩

/-- What else a catalog may hold: defaults in the place of a draft. -/
def givesRooms : Json :=
  .obj [("defaults", .obj [("__table_draft_qid", .str "Q1"),
    ("__table_draft_rows_json", .arr [.int 1, .int 2])])]

/-- Where a default stands in the place of the draft, the word that closes the table stores its
items, although they are no objects. -/
theorem rows_given_flat : ∃ (c : Catalog) (past : List Reply) (w : World MemoryStore)
    (scope : Json × Fields) (entry : Json × Json) (q : Question), c.Accepted ∧ c.FieldsApart ∧
    (Flow.mk c none).Interview "u1" past w ∧ scope ∈ w.store.scopes "u1" ∧ entry ∈ scope.2 ∧
    Bookkeeping.owns entry.1 = false ∧ c.Holds q ∧ q.isTable = true ∧
    (q.fieldKey == entry.1) = true ∧
    ¬ ∃ rows, entry.2 = .arr rows ∧ ∀ row ∈ rows, ∃ o, row = .obj o := by
  have evaluated : Outcome.Gives (Catalog.ofJson (flat "rooms" givesRooms) "catalog.json") fun e =>
      e.1.FieldsApart ∧
      ∃ scope ∈ (rehearsed e.1 [some .null, some (.str "done")]).2.store.scopes "u1",
        ∃ entry ∈ scope.2, Bookkeeping.owns entry.1 = false ∧
          (Outcome.Gives entry.2.itemsOver fun rows => ∃ row ∈ rows, row = .int 1) ∧
          ∃ d ∈ e.1.questions, d.2.isTable = true ∧ (d.2.fieldKey == entry.1) = true := by
    decide +kernel
  obtain ⟨⟨c, warnings⟩, hc, apart, scope, hscope, entry, hentry, hfree, ⟨rows, hrows, row, hrow,
    rfl⟩, d, hd, table, hfield⟩ := evaluated
  refine ⟨c, _, _, scope, entry, d.2, ⟨_, "catalog.json", warnings, hc⟩, apart,
    interview_rehearsed c [some .null, some (.str "done")], hscope, hentry, hfree, ⟨d, hd, rfl⟩,
    table, hfield, ?_⟩
  rintro ⟨rows', hvalue, objects⟩
  rw [hvalue] at hrows
  cases hrows
  obtain ⟨o, ho⟩ := objects _ hrow
  cases ho

end Flow

end Questionnaire
