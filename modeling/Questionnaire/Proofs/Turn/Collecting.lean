import Questionnaire.Proofs.Turn.Derivation
import Questionnaire.Proofs.Turn.Draft
import Questionnaire.Proofs.Turn.Hearing

/-!
# Collecting the rows of a table

While the pointer stands at a question about a table, every message adds its rows to the draft, at
the end, and everything else that is said leaves the draft alone.  The answer that closes the table
stores the draft, and empties it.

## Main Definitions

* `Flow.heardRows` - the rows that the answer of a turn adds to a table
* `Flow.Collecting` - consecutive turns at a question that accept no answer
* `Flow.Commits` - what the turn does that accepts a table

## Main Statements

* `Flow.pending_of_collecting` - the draft after such turns
* `Flow.commits_of_collecting` - what is stored in the end
-/

namespace Questionnaire

theorem Json.wellFormed_of_isTrimmed {v : Json} (h : v.isTrimmed = true) : v.WellFormed := by
  cases v with
  | str s => exact .str s
  | _ => cases h

namespace Flow

/-- The rows that an answer, as the preparer leaves it, adds to the table of a question: none if it
is set aside. -/
def heardRows (f : Flow) (m : MemoryStore) (user : String) (p : Pointer) (q : Question)
    (answer : Json) : List Json :=
  match f.loadState ((m.scopes user).read p.sectionKey), Answer.given answer with
  | .ok s, .ok text =>
    if (f.prepared q s text).reask then [] else messageRows q (f.prepared q s text).answer
  | _, _ => []

/-- The rows of the draft that a section holds for a question. -/
def pending (m : MemoryStore) (user : String) (p : Pointer) (q : Question) : List Json :=
  pendingRows ((m.scopes user).read p.sectionKey) q

variable {f : Flow} {user text : String} {p : Pointer} {q : Question} {answer channel : Json}
  {m : MemoryStore} {s : State} {d : Decision} {c : Collection} {a : Acceptance}
  {stored : Fields} {error : TurnError} {w w' w₀ : World MemoryStore} {r : Except Fault TurnResult}

theorem Hears.heardRows_eq (hears : f.Hears m user p q answer s text) :
    f.heardRows m user p q answer =
      if (f.prepared q s text).reask then [] else messageRows q (f.prepared q s text).answer := by
  rw [heardRows, hears.loaded, hears.given]

/-! ## The draft after a turn -/

theorem heardRows_of_reask (h : f.decide m user answer channel = .ok (.reask p q)) :
    f.heardRows m user p q answer = [] := by
  obtain ⟨s, text, hears, hheed⟩ := hears_of_decide h rfl
  rw [hears.heardRows_eq]
  cases hreask : (f.prepared q s text).reask with
  | true => rfl
  | false =>
    obtain ⟨taken, -, htaken⟩ := exists_taking_of_heed hreask hheed
    cases taken with
    | applied => obtain ⟨_, heq⟩ | ⟨_, heq, -⟩ := htaken <;> cases heq
    | _ => cases htaken

/-- The answer to a question about a table is only rejected when it closes the table. -/
theorem heardRows_of_reject (table : q.isTable = true)
    (h : f.decide m user answer channel = .ok (.reject p stored q error)) :
    f.heardRows m user p q answer = [] := by
  obtain ⟨s, text, hears, hheed⟩ := hears_of_decide h rfl
  rw [hears.heardRows_eq]
  cases hreask : (f.prepared q s text).reask with
  | true => rfl
  | false =>
    obtain ⟨taken, htaken, hd⟩ := exists_taking_of_heed hreask hheed
    obtain ⟨c, rfl, -⟩ | ⟨s', applied, rfl, hnone, -⟩ := taking_cases table htaken
    · cases hd
    · rw [if_neg Bool.false_ne_true, hnone]

section

variable (loaded : f.catalog.Loaded) (usable : f.catalog.usable = .ok ())
  (spares : f.catalog.SparesDraft)

include loaded usable spares

/-- The rows that a turn keeps are those of the draft and behind them those of the answer. -/
theorem rows_of_collect (sound : (m.scopes user).Sound f.catalog.Reads)
    (h : f.decide m user answer channel = .ok (.collect p q c)) :
    c.rows = pending m user p q ++ f.heardRows m user p q answer ∧
      (Json.arr c.rows).dump = .ok c.written ∧ (Json.arr c.rows).WellFormed := by
  obtain ⟨s, text, hears, hreask, htaken⟩ := taking_of_collect h
  obtain ⟨hrows, hdump, hheard⟩ := rows_of_collected htaken
  have hdraft : (Json.arr (draftRows s q)).WellFormed :=
    (isValue_draftRows loaded (fun _ => sound.read p.sectionKey (.inr rfl))
      (State.ofFields_spec hears.loaded).2.1 q).wellFormed
  have hpending : draftRows s q = pending m user p q :=
    draftRows_of_loadState loaded usable spares hears.loaded q
  refine ⟨?_, hdump, ?_⟩
  · rw [hears.heardRows_eq, if_neg (by simp [hreask]), ← hpending, hrows]
  · rw [hrows, Json.wellFormed_arr_iff, List.forall_mem_append]
    exact ⟨Json.wellFormed_arr_iff.1 hdraft, hheard⟩

/-- A turn at a question about a table that does not accept its answer adds the rows of the answer
to the draft. -/
theorem pending_of_unaccepted (table : q.isTable = true) (trimmed : q.qid.isTrimmed = true)
    (sound : (w.store.scopes user).Sound f.catalog.Reads)
    (hdecide : f.decide w.store user answer channel = .ok d) (hsite : d.site? = some (p, q))
    (hopen : d.isAcceptance = false)
    (hrun : (f.processTurn user answer channel).run w = (r, w')) :
    pending w'.store user p q = pending w.store user p q ++ f.heardRows w.store user p q answer ∧
      (w'.store.scopes user).Sound f.catalog.Reads := by
  obtain ⟨stands, -⟩ := questionAt_of_site (grounded_of_decide hdecide) hsite
  rw [pending, (stores_of_unaccepted hdecide hsite hopen hrun).1]
  cases d with
  | reask =>
    cases hsite
    rw [heardRows_of_reask hdecide, List.append_nil]
    exact ⟨rfl, sound⟩
  | reject p stored q error =>
    cases hsite
    rw [heardRows_of_reject table hdecide, List.append_nil, Decision.stores]
    split
    · -- only the extracted answer is emptied
      have regular : Assoc.Regular [(Bookkeeping.transient, Json.str "")] :=
        Assoc.Regular.nil.put rfl _
      refine ⟨pendingRows_congr (fun key hkey => ?_) q,
        sound.write stands.isKey regular fun key v _ hv => ?_⟩
      · have hother : (Bookkeeping.transient == key) = false := by
          revert key
          decide
        rw [Scopes.valueAt?_read_write stands.isKey sound.regular regular, Assoc.valueAt?_cons,
          hother, if_neg Bool.false_ne_true]
        rfl
      · obtain ⟨e, he, -, rfl⟩ := Assoc.mem_of_valueAt? hv
        rw [List.mem_singleton.1 he]
        exact .str ""
    · exact ⟨rfl, sound⟩
  | collect p q c =>
    cases hsite
    obtain ⟨hrows, hdump, wellFormed⟩ := rows_of_collect loaded usable spares sound hdecide
    refine ⟨?_, sound.write stands.isKey (regular_draftPatch q c) fun key v _ hv => ?_⟩
    · rw [← hrows]
      exact (pendingRows_write_draftPatch stands.isKey sound.regular hdump wellFormed).trans
        (if_pos trimmed)
    · obtain ⟨e, he, -, rfl⟩ := Assoc.mem_of_valueAt? hv
      rcases List.mem_cons.1 he with rfl | he
      · exact Json.wellFormed_of_isTrimmed trimmed
      · rw [List.mem_singleton.1 he]
        exact .str c.written
  | accept => cases hopen
  | _ => cases hsite

end

/-! ## The turn that accepts a table -/

/-- What an accepted answer stores in its section stays there, whatever sections are completed in
the same turn. -/
theorem own_of_accept (hdecide : f.decide w.store user answer channel = .ok (.accept p q a))
    (hrun : (f.processTurn user answer channel).run w = (r, w')) (regular : Assoc.Regular a.patch)
    {key v : Json} (hv : Assoc.valueAt? key a.patch = some v) (hne : v ≠ .null)
    (hrecord : (Bookkeeping.completed == key) = false) :
    Assoc.valueAt? key ((w'.store.scopes user).own p.sectionKey) = some v := by
  obtain ⟨stands, -⟩ := grounded_of_decide hdecide
  have hother : ¬ (p.sectionKey = Bookkeeping.flowScope ∧ key = Bookkeeping.completed) := by
    rintro ⟨-, rfl⟩
    exact absurd hrecord (by decide)
  refine scopes_of_processTurn (Scopes.ignoresRecord_own hother (some v)) hdecide ?_ hrun
  rw [Decision.stores, Scopes.valueAt?_own_write stands.isKey _ regular, hv, Option.filter_some,
    if_pos ((Scopes.isWritten_iff v).2 hne), Option.some_or]

/-- A turn stores rows as the value of a table. -/
structure Commits (f : Flow) (user : String) (p : Pointer) (q : Question) (rows : List Json)
    (w w' : World MemoryStore) : Prop where
  /-- The draft is empty. -/
  cleared : pending w'.store user p q = []
  /-- The field of the question, unless it is bookkeeping, holds the rows. -/
  stored : Bookkeeping.owns q.fieldKey = false →
    w'.store.own? user p.sectionKey q.fieldKey = some (.arr rows)
  /-- The rows are written into the document, at the path of the question. -/
  written : ∃ s filled, f.loadState ((w.store.scopes user).read p.sectionKey) = .ok s ∧
    Path.set s.document q.jsonPath (.arr rows) = .ok filled
  /-- There the stored document holds them, unless a rule writes into the place. -/
  kept : State.SparesPlace f.catalog q.jsonPath →
    ∃ document, storedDocument ((w'.store.scopes user).own p.sectionKey) = some document ∧
      Path.get document q.jsonPath = .ok (.arr rows)

section

variable (loaded : f.catalog.Loaded) (usable : f.catalog.usable = .ok ())
  (spares : f.catalog.SparesDraft) (named : f.AddsNamed) (table : q.isTable = true)

include loaded usable spares named table

/-- An accepted answer to a question about a table stores the draft. -/
theorem commits_of_accept (sound : (w.store.scopes user).Sound f.catalog.Reads)
    (hdecide : f.decide w.store user answer channel = .ok (.accept p q a))
    (hrun : (f.processTurn user answer channel).run w = (r, w')) :
    f.Commits user p q (pending w.store user p q) w w' := by
  obtain ⟨stands, hquestion, s, text, s', applied, accepts⟩ := grounded_of_decide hdecide
  obtain ⟨derived, attachments, notes, passed⟩ := passed_of_judge accepts.judged
  have regular : Assoc.Regular a.patch := named.regular_patch accepts
  obtain ⟨e, he, rfl⟩ := holds_of_questionAt hquestion
  -- the value is the draft
  obtain ⟨c, heq, -⟩ | ⟨s₁, applied₁, heq, -, -, happly⟩ := taking_cases table accepts.taken
  · cases heq
  cases heq
  have hpending : draftRows s e.2 = pending w.store user p e.2 :=
    draftRows_of_loadState loaded usable spares accepts.loaded e.2
  have isValue := isValue_draftRows loaded (fun _ => sound.read p.sectionKey (.inr rfl))
    (State.ofFields_spec accepts.loaded).2.1 e.2
  rw [hpending] at happly isValue
  obtain ⟨hfield, hvalue, hkey⟩ := applied_of_applyValue happly
  -- what is written into the document
  have isDocument := isDocument_of_loadState loaded
    (fun key v hform => sound.read p.sectionKey (.inl hform)) accepts.loaded
  have hwritten := State.document_of_applyValue happly
  rw [State.writeDocument_of_hasPlace
    ((Catalog.filesQuestions_of_accepted loaded.accepted).places e he)] at hwritten
  -- what is stored
  have hpatch := passed.patch
  have hown {key v : Json} (hv : Assoc.valueAt? key a.patch = some v) (hne : v ≠ .null)
      (hrecord : (Bookkeeping.completed == key) = false) :
      Assoc.valueAt? key ((w'.store.scopes user).own p.sectionKey) = some v :=
    own_of_accept hdecide hrun regular hv hne hrecord
  refine ⟨?cleared, fun hfree => ?stored, ⟨s, s'.document, accepts.loaded, hwritten⟩,
    fun sparesPlace => ?kept⟩
  case cleared =>
    have hregular : (w'.store.scopes user).Regular :=
      scopes_of_processTurn (fun _ done h => h.write (Scopes.regular_record done).isKey) hdecide
        (sound.regular.write regular.isKey) hrun
    refine pendingRows_of_cleared ?_ e.2
    rw [hregular.valueAt?_read, hown (v := .str "") ?_ (by simp) (by decide), Option.some_or]
    rw [hpatch]
    exact valueAt?_answerPatch_of_note _ _ _ passed.written
      (draft_of_bookkeeping table passed.written)
  case stored =>
    rw [← hfield] at hfree hkey ⊢
    refine hown ?_ (by simp) (Bookkeeping.ne_of_owns hfree (by decide))
    rw [hpatch, valueAt?_answerPatch_answered _ _ passed.written hkey hfree, hvalue]
  case kept =>
    obtain ⟨dump, hdump, hnote⟩ := document_answerPatch (f.prepared e.2 s text).extra derived
      applied passed.written
    refine ⟨a.state.document, storedDocument_write ?_ hdump ?_, ?_⟩
    · obtain ⟨-, -, settles⟩ := State.settles_of_apply (Catalog.isKey_of_usable usable) happly
        passed.rules
      exact settles.document loaded.rules isValue.wellFormed isDocument
    · exact hown (hpatch ▸ hnote) (by simp) (by decide)
    · rw [State.get_of_applyDerived sparesPlace passed.rules]
      exact Path.get_set hwritten

end

/-! ## Consecutive turns -/

/-- Consecutive turns of a user at a question that accept no answer, and the rows that these
answers add to its table.  The turns may be at any time, and each may fail while it is worded; a
turn that fails before it saves anything adds nothing. -/
inductive Collecting (f : Flow) (user : String) (p : Pointer) (q : Question)
    (w₀ : World MemoryStore) : List Json → World MemoryStore → Prop where
  /-- Nothing was said yet. -/
  | start : Collecting f user p q w₀ [] w₀
  /-- One more turn that does not accept its answer. -/
  | turn {rows : List Json} {w w' : World MemoryStore} {answer channel : Json} {now : String}
      {d : Decision} {r : Except Fault TurnResult} (turns : Collecting f user p q w₀ rows w)
      (hdecide : f.decide w.store user answer channel = .ok d) (hsite : d.site? = some (p, q))
      (hopen : d.isAcceptance = false)
      (hrun : (f.processTurn user answer channel).run { w with now := now } = (r, w')) :
      Collecting f user p q w₀ (rows ++ f.heardRows w.store user p q answer) w'
  /-- One more turn that fails at once. -/
  | failure {rows : List Json} {w w' : World MemoryStore} {answer channel : Json} {now : String}
      {e : Fault} {r : Except Fault TurnResult} (turns : Collecting f user p q w₀ rows w)
      (hdecide : f.decide w.store user answer channel = .error e)
      (hrun : (f.processTurn user answer channel).run { w with now := now } = (r, w')) :
      Collecting f user p q w₀ rows w'

section

variable (loaded : f.catalog.Loaded) (usable : f.catalog.usable = .ok ())
  (spares : f.catalog.SparesDraft) (table : q.isTable = true) (trimmed : q.qid.isTrimmed = true)
  (sound : (w₀.store.scopes user).Sound f.catalog.Reads) {rows : List Json}

include loaded usable spares table trimmed sound

/-- Consecutive turns add the rows of their answers to the draft, in order. -/
theorem pending_of_collecting (turns : f.Collecting user p q w₀ rows w) :
    pending w.store user p q = pending w₀.store user p q ++ rows ∧
      (w.store.scopes user).Sound f.catalog.Reads := by
  -- every turn leaves sound scopes behind, so the draft that it keeps is found in the next one
  induction turns with
  | start => exact ⟨(List.append_nil _).symm, sound⟩
  | @turn _ w _ _ _ now _ _ turns hdecide hsite hopen hrun ih =>
    obtain ⟨hrows, hsound⟩ := ih
    obtain ⟨hadded, hsound'⟩ := pending_of_unaccepted (w := { w with now := now }) loaded usable
      spares table trimmed hsound hdecide hsite hopen hrun
    exact ⟨by rw [hadded, hrows, List.append_assoc], hsound'⟩
  | @failure _ w _ _ _ now _ _ turns hdecide hrun ih =>
    rw [run_processTurn (w := { w with now := now }), hdecide] at hrun
    cases hrun
    exact ih

/-- The rows that are stored in the end are those of the draft and behind them those of all answers,
in order; none is lost and none is there twice. -/
theorem commits_of_collecting (named : f.AddsNamed) (turns : f.Collecting user p q w₀ rows w) :
    pending w.store user p q = pending w₀.store user p q ++ rows ∧
    ∀ answer channel now a r w',
      f.decide w.store user answer channel = .ok (.accept p q a) →
      (f.processTurn user answer channel).run { w with now := now } = (r, w') →
      f.Commits user p q (pending w₀.store user p q ++ rows) w w' := by
  obtain ⟨hrows, hsound⟩ :=
    pending_of_collecting loaded usable spares table trimmed sound turns
  refine ⟨hrows, fun answer channel now a r w' hdecide hrun => ?_⟩
  rw [← hrows]
  obtain ⟨cleared, stored, written, kept⟩ := commits_of_accept (w := { w with now := now }) loaded
    usable spares named table hsound hdecide hrun
  exact ⟨cleared, stored, written, kept⟩

end

/-- A catalog that asks for the rooms of a flat, row by row. -/
def flat (field : String) (contract : Json) : Json :=
  .obj [
    ("questions", .arr [.obj [("qid", .str "Q1"), ("field_key", .str field),
      ("data_type", .str "array"), ("input_kind", .str "table"), ("prompt", .str "Rooms?"),
      ("table_columns", .arr [.str "room", .str "area"])]]),
    ("stages", .arr [.obj [("stage_key", .str "s"), ("question_ids", .arr [.str "Q1"])]]),
    ("engine_contract", contract),
    ("processes", .arr [.obj [("process_key", .str "01"), ("stage_keys", .arr [.str "s"])]])]

/-- A world in which the rooms are asked for. -/
def pendingRooms : World MemoryStore where
  store := {
    pointers := [("u1", ⟨.str "01", .str "Q1", .str "s", .active, .str "00000001"⟩)] }
  sessions := 1
  now := "2000-01-01T00:00:00+00:00"

/-- The world after messages to this question. -/
def said (c : Catalog) (messages : List String) : World MemoryStore :=
  messages.foldl
    (fun w message => (((Flow.mk c none).processTurn "u1" (.str message) .null).run w).2)
    pendingRooms

/-- The decision about a message after other ones. -/
def deciding (c : Catalog) (messages : List String) (message : String) : Except Fault Decision :=
  (Flow.mk c none).decide (said c messages).store "u1" (.str message) .null

/-- The rows that a message adds after other ones. -/
def hearing (c : Catalog) (site : Pointer × Question) (messages : List String) (message : String) :
    List Json :=
  (Flow.mk c none).heardRows (said c messages).store "u1" site.1 site.2 (.str message)

/-- A row is kept, and a word that closes the table stores it. -/
theorem commits_of_collecting_flat : ∃ (c : Catalog) (p : Pointer) (q : Question)
    (rows : List Json) (w w' : World MemoryStore), c.Loaded ∧
    (Flow.mk c none).Collecting "u1" p q pendingRooms rows w ∧ rows.length = 1 ∧
    (Flow.mk c none).Commits "u1" p q (pending pendingRooms.store "u1" p q ++ rows) w w' := by
  have evaluated : Outcome.Gives (Catalog.ofJson (flat "rooms" (.obj [])) "catalog.json") fun e =>
      Outcome.Gives e.1.usable (fun _ => True) ∧ e.1.SparesDraft ∧
      Outcome.Gives (deciding e.1 [] "Kitchen, 12") (fun d => d.isAcceptance = false ∧
        ∃ site ∈ d.site?, site.2.isTable = true ∧ site.2.qid.isTrimmed = true ∧
          (hearing e.1 site [] "Kitchen, 12").length = 1) ∧
      Outcome.Gives (deciding e.1 ["Kitchen, 12"] "done") (·.Accepting fun _ _ _ => True) := by
    decide +kernel
  obtain ⟨⟨c, warnings⟩, hc, ⟨_, usable, -⟩, spares, ⟨d, hdecide, hopen, ⟨p, q⟩, hsite, table,
    trimmed, hlength⟩, _, haccept, p', q', a, rfl, -⟩ := evaluated
  have wellFormed : (flat "rooms" (.obj [])).WellFormed := by simp [flat]
  have loaded : (Flow.mk c none).catalog.Loaded :=
    ⟨_, "catalog.json", warnings, wellFormed, hc⟩
  have hrun : ((Flow.mk c none).processTurn "u1" (.str "Kitchen, 12") .null).run
      { pendingRooms with now := pendingRooms.now } = (_, said c ["Kitchen, 12"]) := rfl
  have turns := Collecting.start.turn hdecide hsite hopen hrun
  have hpointer := (stores_of_unaccepted hdecide hsite hopen hrun).2
  cases site_unique hpointer hdecide hsite haccept rfl
  have sound : (pendingRooms.store.scopes "u1").Sound (Flow.mk c none).catalog.Reads := .nil
  obtain ⟨-, commits⟩ := commits_of_collecting loaded usable spares table trimmed sound
    (fun _ _ _ e he => by cases he) turns
  exact ⟨c, p, q, _, _, _, loaded, turns, hlength,
    commits _ _ (said c ["Kitchen, 12"]).now a _ _ haccept rfl⟩

/-- What else a catalog may compute: a variable in the place of the draft. -/
def computesDraft : Json :=
  .obj [("computed_vars", .arr [.obj [("target", Bookkeeping.draftQuestion),
    ("terms", .arr [.str "area"])]])]

/-- What else a catalog may derive: a value in the place of the rooms. -/
def derivesRooms : Json :=
  .obj [("derived_rules", .arr [.obj [("target_field", .str "size"),
    ("set_when", .str "present(handoff_reasons)"), ("value", .int 1), ("maps_to_qid", .str "Q1")]])]

/-- Where a variable is computed in the place of the draft, the hall is kept in the place of the
kitchen.  Where the field of the rooms is bookkeeping and a rule writes into their place, neither
holds the rooms in the end. -/
theorem rows_displaced_flat :
    (∃ (c : Catalog) (p : Pointer) (q : Question) (rows : List Json) (w : World MemoryStore),
      c.Accepted ∧ q.isTable = true ∧ q.qid.isTrimmed = true ∧
      (Flow.mk c none).Collecting "u1" p q pendingRooms rows w ∧
      pending w.store "u1" p q ≠ pending pendingRooms.store "u1" p q ++ rows) ∧
    ∃ (c : Catalog) (p : Pointer) (q : Question) (rows : List Json) (w w' : World MemoryStore)
      (a : Acceptance) (document : Json),
      c.Accepted ∧ q.isTable = true ∧ q.qid.isTrimmed = true ∧
      (Flow.mk c none).Collecting "u1" p q pendingRooms rows w ∧
      (Flow.mk c none).decide w.store "u1" (.str "done") .null = .ok (.accept p q a) ∧
      w' = (((Flow.mk c none).processTurn "u1" (.str "done") .null).run w).2 ∧
      w'.store.own? "u1" p.sectionKey q.fieldKey ≠
        some (.arr (pending pendingRooms.store "u1" p q ++ rows)) ∧
      storedDocument ((w'.store.scopes "u1").own p.sectionKey) = some document ∧
      Path.get document q.jsonPath ≠
        .ok (.arr (pending pendingRooms.store "u1" p q ++ rows)) := by
  constructor
  · have evaluated : Outcome.Gives (Catalog.ofJson (flat "rooms" computesDraft) "catalog.json")
        fun e =>
        Outcome.Gives (deciding e.1 [] "Kitchen, 12") (fun d => d.isAcceptance = false ∧
          ∃ site ∈ d.site?, site.2.isTable = true ∧ site.2.qid.isTrimmed = true ∧
          (hearing e.1 site [] "Kitchen, 12").length = 1 ∧
          (hearing e.1 site ["Kitchen, 12"] "Hall, 5").length = 1 ∧
          (pending (said e.1 ["Kitchen, 12", "Hall, 5"]).store "u1" site.1 site.2).length = 1) ∧
        Outcome.Gives (deciding e.1 ["Kitchen, 12"] "Hall, 5") fun d =>
          d.isAcceptance = false ∧ d.site?.isSome = true := by
      decide +kernel
    obtain ⟨⟨c, warnings⟩, hc, ⟨d, hdecide, hopen, ⟨p, q⟩, hsite, table, trimmed, hfirst, hsecond,
      hlength⟩, d', hdecide', hopen', hsite'⟩ := evaluated
    obtain ⟨site', hsite'⟩ := Option.isSome_iff_exists.1 hsite'
    have hrun : ((Flow.mk c none).processTurn "u1" (.str "Kitchen, 12") .null).run
        { pendingRooms with now := pendingRooms.now } = (_, said c ["Kitchen, 12"]) := rfl
    have hrun' : ((Flow.mk c none).processTurn "u1" (.str "Hall, 5") .null).run
        { said c ["Kitchen, 12"] with now := (said c ["Kitchen, 12"]).now } =
        (_, said c ["Kitchen, 12", "Hall, 5"]) := rfl
    have hpointer := (stores_of_unaccepted hdecide hsite hopen hrun).2
    cases site_unique hpointer hdecide hsite hdecide' hsite'
    refine ⟨c, p, q, _, _, ⟨_, "catalog.json", warnings, hc⟩, table, trimmed,
      (Collecting.start.turn hdecide hsite hopen hrun).turn hdecide' hsite' hopen' hrun',
      fun h => ?_⟩
    -- one row is left of two
    have hlengths := congrArg List.length h
    rw [hlength, List.length_append, List.nil_append, List.length_append] at hlengths
    change 1 = _ + ((hearing c (p, q) [] "Kitchen, 12").length +
      (hearing c (p, q) ["Kitchen, 12"] "Hall, 5").length) at hlengths
    rw [hfirst, hsecond] at hlengths
    omega
  · have evaluated : Outcome.Gives
        (Catalog.ofJson (flat "handoff_reasons" derivesRooms) "catalog.json") fun e =>
        Outcome.Gives (deciding e.1 [] "Kitchen, 12") (fun d => d.isAcceptance = false ∧
          ∃ site ∈ d.site?, site.2.isTable = true ∧ site.2.qid.isTrimmed = true ∧
          (∃ v ∈ (said e.1 ["Kitchen, 12", "done"]).store.own? "u1" site.1.sectionKey
            site.2.fieldKey, v = .str "") ∧
          ∃ document ∈ storedDocument
              (((said e.1 ["Kitchen, 12", "done"]).store.scopes "u1").own site.1.sectionKey),
            Outcome.Gives (Path.get document site.2.jsonPath) (· = .int 1)) ∧
        Outcome.Gives (deciding e.1 ["Kitchen, 12"] "done") (·.Accepting fun _ _ _ => True) := by
      decide +kernel
    obtain ⟨⟨c, warnings⟩, hc, ⟨d, hdecide, hopen, ⟨p, q⟩, hsite, table, trimmed,
      ⟨_, hown, rfl⟩, document, hdocument, _, hplace, rfl⟩, _, haccept, p', q', a, rfl, -⟩ :=
      evaluated
    have hrun : ((Flow.mk c none).processTurn "u1" (.str "Kitchen, 12") .null).run
        { pendingRooms with now := pendingRooms.now } = (_, said c ["Kitchen, 12"]) := rfl
    have hpointer := (stores_of_unaccepted hdecide hsite hopen hrun).2
    cases site_unique hpointer hdecide hsite haccept rfl
    refine ⟨c, p, q, _, _, _, a, document, ⟨_, "catalog.json", warnings, hc⟩, table, trimmed,
      Collecting.start.turn hdecide hsite hopen hrun, haccept, rfl, fun h => ?_, hdocument,
      fun h => ?_⟩
    · cases hown.symm.trans h
    · cases hplace.symm.trans h

end Flow

end Questionnaire
