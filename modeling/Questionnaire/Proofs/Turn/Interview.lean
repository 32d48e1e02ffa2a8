import Questionnaire.Proofs.Turn.Conversation
import Questionnaire.Proofs.Turn.Document
import Questionnaire.Proofs.Turn.Stored

/-!
# Interviews

A user answers questions section by section, with resets in between.  Each section keeps a copy of
the form document of its own; a section without a copy starts from the one that was stored last.  So
the document is complete as long as no section is returned to after another one has taken answers,
and after a return it holds what the copy of the section held.

## Main Definitions

* `Reply` - an answer that a section has looked at
* `Flow.Interview` - the replies of a user since the store was empty
* `Straight` - no section is returned to
* `Flow.Kept` - what the scopes of a user hold after replies

## Main Statements

* `Flow.kept_of_interview` - every interview keeps this
* `Flow.filledIn_iff_loaded` - what the document holds after an answer
-/

namespace Questionnaire

open Bookkeeping (flowScope)

/-- An answer that a section has looked at, with the question if it was accepted. -/
structure Reply where
  /-- The section. -/
  section_ : Json
  /-- The question. -/
  accepted : Option Question

/-- The reply that a decision stands for. -/
def Decision.reply? : Decision → Option Reply
  | .accept p q _ => some ⟨p.sectionKey, some q⟩
  | .collect p _ _ => some ⟨p.sectionKey, none⟩
  | .reject p _ _ _ => some ⟨p.sectionKey, none⟩
  | _ => none

/-- A section took the last of some replies, or none of them; the last reply stands first. -/
def Permits : List Reply → Json → Prop
  | [], _ => True
  | r :: rest, section_ => (r.section_ == section_) = true ∨
    ∀ r' ∈ r :: rest, (r'.section_ == section_) = false

/-- No section is returned to after another one has taken a reply. -/
def Straight : List Reply → Prop
  | [] => True
  | r :: rest => Permits rest r.section_ ∧ Straight rest

instance decidablePermits : (replies : List Reply) → (section_ : Json) →
    Decidable (Permits replies section_)
  | [], _ => isTrue trivial
  | r :: rest, section_ => inferInstanceAs (Decidable ((r.section_ == section_) = true ∨
      ∀ r' ∈ r :: rest, (r'.section_ == section_) = false))

instance decidableStraight : (replies : List Reply) → Decidable (Straight replies)
  | [] => isTrue trivial
  | r :: rest =>
    have := decidableStraight rest
    inferInstanceAs (Decidable (Permits rest r.section_ ∧ Straight rest))

/-- No section is named like the scope of the record of completed sections. -/
def Catalog.SparesFlowScope (c : Catalog) : Prop :=
  ∀ e ∈ c.processes, (e.1 == flowScope) = false

namespace Flow

/-- The reply of a turn, if there is one. -/
def replies (f : Flow) (m : MemoryStore) (user : String) (answer channel : Json) : List Reply :=
  match f.decide m user answer channel with
  | .ok d => d.reply?.toList
  | .error _ => []

/-- The replies of a user since the store was empty, the last one first.  Turns may fail, and other
users may take turns in between. -/
inductive Interview (f : Flow) (user : String) : List Reply → World MemoryStore → Prop where
  /-- The store is empty. -/
  | start (w : World MemoryStore) (h : w.store = {}) : Interview f user [] w
  /-- A turn of the user. -/
  | turn {past : List Reply} {w w' : World MemoryStore} {answer channel : Json} {now : String}
      {r : Except Fault TurnResult} (talk : Interview f user past w)
      (h : (f.processTurn user answer channel).run { w with now := now } = (r, w')) :
      Interview f user (f.replies w.store user answer channel ++ past) w'
  /-- A turn of another user. -/
  | other {past : List Reply} {w w' : World MemoryStore} {other : String} {answer channel : Json}
      {now : String} {r : Except Fault TurnResult} (talk : Interview f user past w)
      (hother : other ≠ user)
      (h : (f.processTurn other answer channel).run { w with now := now } = (r, w')) :
      Interview f user past w'
  /-- The pointer of a user is forgotten. -/
  | reset {past : List Reply} {w w' : World MemoryStore} {other : String}
      {r : Except Fault Unit} (talk : Interview f user past w)
      (h : (Flow.reset other : TurnM MemoryStore Unit).run w = (r, w')) :
      Interview f user past w'

/-- What the scopes of a user hold after replies. -/
structure Kept (c : Catalog) (past : List Reply) (scopes : Scopes) : Prop where
  /-- What is looked for is well formed. -/
  sound : scopes.Sound c.Reads
  /-- The scope of the record holds nothing else. -/
  records : scopes.OnlyRecords flowScope
  /-- The other scopes are sections that took replies. -/
  listed : ∀ e ∈ scopes, (e.1 == flowScope) = true ∨ ∃ r ∈ past, (r.section_ == e.1) = true
  /-- The answers were given to questions of the catalog. -/
  known : ∀ r ∈ past, ∀ q, r.accepted = some q → c.Holds q
  /-- A section that may take the next reply reads a document that holds all answers. -/
  filled : Straight past → ∀ section_, section_.isKey = true → (flowScope == section_) = false →
    Permits past section_ → ∀ r ∈ past, ∀ q, r.accepted = some q →
      ∃ d, storedDocument (scopes.read section_) = some d ∧ q.FilledIn d (scopes.read section_)

variable {c : Catalog} {past : List Reply} {scopes : Scopes} {section_ : Json}

theorem kept_nil (c : Catalog) : Kept c [] [] where
  sound := ⟨by simp [Scopes.Regular], by simp⟩
  records e he := by cases he
  listed e he := by cases he
  known r hr := by cases hr
  filled _ _ _ _ _ r hr := by cases hr

theorem storedDocument_congr {fields fields' : Fields}
    (h : Assoc.valueAt? Bookkeeping.document fields = Assoc.valueAt? Bookkeeping.document fields') :
    storedDocument fields = storedDocument fields' := by
  unfold storedDocument
  rw [h]

/-- A key of the form is the document, or no bookkeeping at all. -/
theorem owns_of_onForm (separated : c.Separated) {key : Json} (h : c.OnForm key)
    (hdocument : key ≠ Bookkeeping.document) : Bookkeeping.owns key = false := by
  rcases h with h | ⟨e, he, rfl⟩
  · exact absurd h hdocument
  · exact separated.free e he

theorem ne_completed_of_onForm (separated : c.Separated) {key : Json} (h : c.OnForm key) :
    key ≠ Bookkeeping.completed := by
  rintro rfl
  exact absurd (owns_of_onForm separated h fun h => absurd (Json.str.inj h) (by decide)) (by decide)

/-- Where all keys of the form have the same values, the same answers are held. -/
theorem filledIn_congr {fields fields' : Fields}
    (h : ∀ key, c.OnForm key → Assoc.valueAt? key fields = Assoc.valueAt? key fields')
    {q : Question} (hq : c.Holds q) (d : Json) : q.FilledIn d fields ↔ q.FilledIn d fields' := by
  obtain ⟨e, he, rfl⟩ := hq
  unfold Question.FilledIn
  rw [h e.2.fieldKey (.inr ⟨e, he, rfl⟩)]

theorem exists_filledIn_congr {fields fields' : Fields}
    (h : ∀ key, c.OnForm key → Assoc.valueAt? key fields = Assoc.valueAt? key fields')
    {q : Question} (hq : c.Holds q)
    (hfilled : ∃ d, storedDocument fields' = some d ∧ q.FilledIn d fields') :
    ∃ d, storedDocument fields = some d ∧ q.FilledIn d fields := by
  obtain ⟨d, hd, hfilled⟩ := hfilled
  refine ⟨d, ?_, (filledIn_congr h hq d).2 hfilled⟩
  rw [storedDocument_congr (h _ (.inl rfl)), hd]

/-- A new record of completed sections keeps it. -/
theorem ignoresRecord_kept (separated : c.Separated) (past : List Reply) :
    Scopes.IgnoresRecord (Kept c past) := by
  intro scopes done kept
  have regular := Scopes.regular_record done
  refine ⟨kept.sound.write isKey_flowScope regular fun key v hkey hv => ?sound,
    kept.records.write isKey_flowScope done, fun e he => ?listed, kept.known,
    fun straight section_ hkey hflow permits r hr q hq => ?filled⟩
  case sound =>
    have hne : key ≠ Bookkeeping.completed := by
      rcases hkey with hform | rfl
      · exact ne_completed_of_onForm separated hform
      · exact fun h => absurd (Json.str.inj h) (by decide)
    rw [Scopes.valueAt?_record done hne] at hv
    cases hv
  case listed =>
    rcases List.mem_append.1 he with he | he
    · exact kept.listed e (List.mem_filter.1 he).1
    · rw [List.mem_singleton.1 he]
      exact .inl (Json.isName_of_isKey isKey_flowScope).self
  case filled =>
    refine exists_filledIn_congr (fun key hform => ?_) (kept.known r hr q hq)
      (kept.filled straight section_ hkey hflow permits r hr q hq)
    exact kept.sound.regular.valueAt?_read_record isKey_flowScope done kept.records
      (ne_completed_of_onForm separated hform) section_

namespace Kept

variable {reply : Reply} {patch : Fields}

/-- Scopes besides that of the record took replies. -/
theorem unlisted (kept : Kept c past scopes) (hkey : section_.isKey = true)
    (hflow : (flowScope == section_) = false)
    (h : ∀ r ∈ past, (r.section_ == section_) = false) :
    ∀ e ∈ scopes, (e.1 == section_) = false := by
  intro e he
  refine Bool.eq_false_iff.2 fun hsame => ?_
  rcases kept.listed e he with hrecord | ⟨r, hr, hsection⟩
  · rw [(Json.isName_of_isKey isKey_flowScope).left hrecord, hflow] at hsame
    cases hsame
  · rw [(Json.isName_of_isKey hkey).right hsame, h r hr] at hsection
    cases hsection

/-- A reply that does not write anything. -/
theorem idle (kept : Kept c past scopes) (hkey : reply.section_.isKey = true)
    (hflow : (flowScope == reply.section_) = false) (hnone : reply.accepted = none) :
    Kept c (reply :: past) scopes := by
  have mono {P : Reply → Prop} (h : ∃ r ∈ past, P r) : ∃ r ∈ reply :: past, P r := by
    obtain ⟨r, hr, h⟩ := h
    exact ⟨r, List.mem_cons_of_mem reply hr, h⟩
  have among {r : Reply} {q : Question} (hr : r ∈ reply :: past) (hq : r.accepted = some q) :
      r ∈ past := by
    rcases List.mem_cons.1 hr with rfl | hr
    · rw [hnone] at hq
      cases hq
    · exact hr
  refine ⟨kept.sound, kept.records, fun e he => (kept.listed e he).imp_right mono,
    fun r hr q hq => kept.known r (among hr hq) q hq,
    fun straight section_ hkey' hflow' permits r hr q hq => ?_⟩
  obtain ⟨hpermits, hstraight⟩ := straight
  rcases permits with hsame | hfresh
  · -- the section of the reply itself
    rw [Scopes.read_congr hkey (by rw [← (Json.isName_of_isKey hkey).symm]; exact hsame)]
    exact kept.filled hstraight reply.section_ hkey hflow hpermits r (among hr hq) q hq
  · refine kept.filled hstraight section_ hkey' hflow' ?_ r (among hr hq) q hq
    cases past with
    | nil => trivial
    | cons r' rest => exact .inr fun r'' hr'' => hfresh r'' (List.mem_cons_of_mem reply hr'')

/-- A reply that writes into its section. -/
theorem write (kept : Kept c past scopes) (hkey : reply.section_.isKey = true)
    (hflow : (flowScope == reply.section_) = false) (regular : Assoc.Regular patch)
    (hpatch : ∀ key v, c.Reads key → Assoc.valueAt? key patch = some v → v.WellFormed)
    (hknown : ∀ q, reply.accepted = some q → c.Holds q)
    (hfilled : Straight (reply :: past) → ∀ r ∈ reply :: past, ∀ q, r.accepted = some q →
      ∃ d, storedDocument ((scopes.write reply.section_ patch).read reply.section_) = some d ∧
        q.FilledIn d ((scopes.write reply.section_ patch).read reply.section_)) :
    Kept c (reply :: past) (scopes.write reply.section_ patch) := by
  have name := Json.isName_of_isKey hkey
  refine ⟨kept.sound.write hkey regular hpatch, fun e he hrecord key hne => ?records,
    fun e he => ?listed, fun r hr q hq => ?known,
    fun straight section_ hkey' hflow' permits r hr q hq => ?filled⟩
  case records =>
    rcases List.mem_append.1 he with he | he
    · exact kept.records e (List.mem_filter.1 he).1 hrecord key hne
    · rw [List.mem_singleton.1 he, name.symm, hflow] at hrecord
      cases hrecord
  case listed =>
    rcases List.mem_append.1 he with he | he
    · rcases kept.listed e (List.mem_filter.1 he).1 with hrecord | ⟨r, hr, hsection⟩
      · exact .inl hrecord
      · exact .inr ⟨r, List.mem_cons_of_mem reply hr, hsection⟩
    · rw [List.mem_singleton.1 he]
      exact .inr ⟨reply, List.mem_cons_self, name.self⟩
  case known =>
    rcases List.mem_cons.1 hr with rfl | hr
    · exact hknown q hq
    · exact kept.known r hr q hq
  case filled =>
    -- whatever section takes the next reply, it reads what this one reads
    have hread : (scopes.write reply.section_ patch).read section_ =
        (scopes.write reply.section_ patch).read reply.section_ := by
      rcases permits with hsame | hfresh
      · exact Scopes.read_congr hkey (by rw [← name.symm]; exact hsame) _
      · exact Scopes.read_write_of_unlisted hkey (hfresh reply List.mem_cons_self)
          (kept.unlisted hkey' hflow' fun r hr => hfresh r (List.mem_cons_of_mem reply hr)) patch
    rw [hread]
    exact hfilled straight r hr q hq

/-- A reply that only keeps notes in its section. -/
theorem annotate (separated : c.Separated) (kept : Kept c past scopes)
    (hkey : reply.section_.isKey = true) (hflow : (flowScope == reply.section_) = false)
    (hnone : reply.accepted = none) (regular : Assoc.Regular patch)
    (hnotes : ∀ e ∈ patch, Bookkeeping.owns e.1 = true ∧ (e.1 == Bookkeeping.document) = false)
    (hrows : ∀ v, Assoc.valueAt? Bookkeeping.draftRows patch = some v → v.WellFormed) :
    Kept c (reply :: past) (scopes.write reply.section_ patch) := by
  have hform {key : Json} (h : c.OnForm key) : Assoc.valueAt? key patch = none := by
    refine Assoc.valueAt?_eq_none fun e he => Bool.eq_false_iff.2 fun hbeq => ?_
    obtain ⟨howns, hdocument⟩ := hnotes e he
    by_cases hd : key = Bookkeeping.document
    · rw [hd, hdocument] at hbeq
      cases hbeq
    · rw [Bookkeeping.ne_of_owns (owns_of_onForm separated h hd) howns] at hbeq
      cases hbeq
  refine kept.write hkey hflow regular (fun key v hreads hv => ?_) (fun q hq => ?_)
    fun straight r hr q hq => ?_
  · rcases hreads with h | rfl
    · rw [hform h] at hv
      cases hv
    · exact hrows v hv
  · rw [hnone] at hq
    cases hq
  · have hr : r ∈ past := by
      rcases List.mem_cons.1 hr with rfl | hr
      · rw [hnone] at hq
        cases hq
      · exact hr
    refine exists_filledIn_congr (fun key h => ?_) (kept.known r hr q hq)
      (kept.filled straight.2 reply.section_ hkey hflow straight.1 r hr q hq)
    rw [Scopes.valueAt?_read_write hkey kept.sound.regular regular, hform h, Option.filter_none,
      Option.none_or]

end Kept

section

variable {f : Flow} {user : String} {answer channel : Json} {w w' : World MemoryStore}
  {m : MemoryStore} {p : Pointer} {q : Question} {a : Acceptance} {r : Except Fault TurnResult}

/-- A section where a pointer stands is none that is named like the scope of the record. -/
theorem Stands.ne_flowScope (stands : f.Stands m user p) (spares : f.catalog.SparesFlowScope) :
    (flowScope == p.sectionKey) = false := by
  refine Bool.eq_false_iff.2 fun hflow => ?_
  obtain ⟨process, hprocess⟩ := Option.isSome_iff_exists.1 stands.isKnown
  obtain ⟨e, he, hsection, -⟩ := Assoc.mem_of_valueAt? hprocess
  rw [Json.eq_of_str_beq hflow] at hsection
  cases (spares e he).symm.trans hsection

/-- The document that a section loads is the one that is stored. -/
theorem document_of_loadState {fields : Fields} {s : State} (h : f.loadState fields = .ok s)
    {d : Json} (hd : storedDocument fields = some d) : s.document = d := by
  have hdocument := (State.ofFields_spec h).1
  rw [hd] at hdocument
  exact (Except.ok.inj hdocument).symm

variable (loaded : f.catalog.Loaded) (plain : f.preparer = none)
  (unruled : f.catalog.derivedRules = []) (separated : f.catalog.Separated)
  (spares : f.catalog.SparesFlowScope)

include loaded separated in
/-- Another question of the catalog has another field and an independent path. -/
theorem apart_of_ne {q' : Question} (hq : f.catalog.Holds q) (hq' : f.catalog.Holds q')
    (hne : q' ≠ q) : Bookkeeping.owns q'.fieldKey = false ∧
      (q.fieldKey == q'.fieldKey) = false ∧ Path.Independent q.jsonPath q'.jsonPath := by
  have filed := Catalog.filedBy_questions loaded.accepted
  obtain ⟨e, he, rfl⟩ := hq
  obtain ⟨d, hd, rfl⟩ := hq'
  have hkey : (e.1 == d.1) = false :=
    Bool.eq_false_iff.2 fun hsame => hne (filed.eq_of_beq he hd hsame).symm
  exact ⟨separated.free d hd, separated.fields e he d hd hkey, separated.paths e he d hd hkey⟩

include loaded plain unruled separated spares

/-- What a decision writes keeps it. -/
theorem kept_of_decide {d : Decision} (kept : Kept f.catalog past (m.scopes user))
    (hdecide : f.decide m user answer channel = .ok d) :
    Kept f.catalog (d.reply?.toList ++ past) (d.stores (m.scopes user)) := by
  have grounded := grounded_of_decide hdecide
  cases d with
  | closed => exact kept
  | begin isLost => exact kept
  | redirect p s e => exact kept
  | depart p s => exact kept
  | reask p q => exact kept
  | reject p stored q error =>
    have hflow := grounded.1.ne_flowScope spares
    show Kept f.catalog (⟨p.sectionKey, none⟩ :: past) (if _ then _ else _)
    split
    · refine Kept.annotate separated kept grounded.1.isKey hflow rfl (Assoc.Regular.nil.put rfl _)
        (fun e he => ?_) (fun v hv => ?_)
      · rw [List.mem_singleton.1 he]
        decide
      · obtain ⟨e, he, -, rfl⟩ := Assoc.mem_of_valueAt? hv
        rw [List.mem_singleton.1 he]
        exact .str _
    · exact kept.idle grounded.1.isKey hflow rfl
  | collect p q c =>
    have hflow := grounded.1.ne_flowScope spares
    refine Kept.annotate separated kept grounded.1.isKey hflow rfl (regular_draftPatch q c)
      (fun e he => ⟨(owns_draftPatch e he).1, (owns_draftPatch e he).2.1⟩) (fun v hv => ?_)
    cases hv
    exact .str _
  | accept p q a =>
    obtain ⟨hq, s, filled, v, hloaded, fills⟩ :=
      exists_fills_of_accept loaded plain unruled kept.sound hdecide
    have hflow := grounded.1.ne_flowScope spares
    have hread := Scopes.valueAt?_read_write grounded.1.isKey kept.sound.regular fills.regular
    refine Kept.write kept grounded.1.isKey hflow fills.regular (fun key v _ hv => ?_)
      (fun q' hq' => by cases hq'; exact hq) fun straight r hr q' hq' => ?_
    · obtain ⟨e, he, -, rfl⟩ := Assoc.mem_of_valueAt? hv
      exact fills.wellFormed e he
    · refine ⟨filled, fills.storedDocument_eq hread, ?_⟩
      by_cases hsame : q' = q
      · obtain ⟨e, he, rfl⟩ := hq
        rw [hsame]
        exact fills.filledIn hread (separated.free e he)
      · -- another answer was held by the document that the section has loaded
        rcases List.mem_cons.1 hr with rfl | hr
        · cases hq'
          exact absurd rfl hsame
        · obtain ⟨hfree, hfield, independent⟩ :=
            apart_of_ne loaded separated hq (kept.known r hr q' hq') hsame
          obtain ⟨d, hd, hfilled⟩ :=
            kept.filled straight.2 p.sectionKey grounded.1.isKey hflow straight.1 r hr q' hq'
          rw [← document_of_loadState hloaded hd] at hfilled
          exact (fills.filledIn_iff hread hfree hfield independent).2 hfilled

theorem kept_of_processTurn (kept : Kept f.catalog past (w.store.scopes user))
    (h : (f.processTurn user answer channel).run w = (r, w')) :
    Kept f.catalog (f.replies w.store user answer channel ++ past) (w'.store.scopes user) := by
  unfold replies
  obtain ⟨e, hdecide, -, rfl⟩ | ⟨d, hdecide, -⟩ := turn_cases h
  · rw [hdecide]
    exact kept
  · rw [hdecide]
    exact scopes_of_processTurn (ignoresRecord_kept separated _) hdecide
      (kept_of_decide loaded plain unruled separated spares kept hdecide) h

/-- Whatever happens in an interview, the document of a section that may take the next reply holds
all answers, unless a section was returned to. -/
theorem kept_of_interview (talk : f.Interview user past w) :
    Kept f.catalog past (w.store.scopes user) := by
  induction talk with
  | start w h =>
    rw [h]
    exact kept_nil f.catalog
  | @turn past w w' answer channel now r talk h ih =>
    exact kept_of_processTurn loaded plain unruled separated spares
      (w := { w with now := now }) ih h
  | other talk hother h ih =>
    rw [(elsewhere_of_processTurn h).scopes user hother.symm]
    exact ih
  | reset talk h ih =>
    cases congrArg Prod.snd h
    exact ih

/-- After an answer was accepted, the document that is stored in the section holds it.  Of every
other question the document holds the stored value exactly when the document that the section has
loaded held it.  So it holds all answers as long as no section is returned to after another one has
taken replies. -/
theorem filledIn_iff_loaded {now : String} (talk : f.Interview user past w)
    (hdecide : f.decide w.store user answer channel = .ok (.accept p q a))
    (h : (f.processTurn user answer channel).run { w with now := now } = (r, w')) :
    ∃ s d, f.loadState ((w.store.scopes user).read p.sectionKey) = .ok s ∧
      storedDocument ((w'.store.scopes user).own p.sectionKey) = some d ∧
      q.FilledIn d ((w'.store.scopes user).read p.sectionKey) ∧
      (∀ q', f.catalog.Holds q' → q' ≠ q →
        (q'.FilledIn d ((w'.store.scopes user).read p.sectionKey) ↔
          q'.FilledIn s.document ((w.store.scopes user).read p.sectionKey))) ∧
      (Straight (⟨p.sectionKey, some q⟩ :: past) → ∀ reply ∈ past, ∀ q',
        reply.accepted = some q' →
          q'.FilledIn d ((w'.store.scopes user).read p.sectionKey)) := by
  have kept := kept_of_interview loaded plain unruled separated spares talk
  have stands := (grounded_of_decide hdecide).1
  have hflow := stands.ne_flowScope spares
  obtain ⟨hq, s, d, v, hs, fills⟩ :=
    exists_fills_of_accept loaded plain unruled kept.sound hdecide
  have hread := Scopes.valueAt?_read_write stands.isKey kept.sound.regular fills.regular
  have hown := Scopes.valueAt?_own_write stands.isKey (w.store.scopes user) fills.regular
  have hkept := kept_of_decide loaded plain unruled separated spares kept hdecide
  -- the sections that are completed in this turn change neither what the section holds nor reads
  have hdocument : storedDocument ((w'.store.scopes user).own p.sectionKey) = some d := by
    have hrecord : ¬ (p.sectionKey = flowScope ∧ Bookkeeping.document = Bookkeeping.completed) :=
      fun hrecord => absurd (Json.str.inj hrecord.2) (by decide)
    rw [storedDocument_congr (scopes_of_processTurn (w := { w with now := now })
      (Scopes.ignoresRecord_own hrecord _) hdecide rfl h)]
    exact fills.storedDocument_eq hown
  have hlast : ∀ key, f.catalog.OnForm key →
      Assoc.valueAt? key ((w'.store.scopes user).read p.sectionKey) =
        Assoc.valueAt? key
          (((w.store.scopes user).write p.sectionKey a.patch).read p.sectionKey) := by
    obtain ⟨-, -, hsame⟩ := scopes_of_processTurn (w := { w with now := now })
      (Scopes.ignoresRecord_read p.sectionKey
        (((w.store.scopes user).write p.sectionKey a.patch).read p.sectionKey)) hdecide
      ⟨hkept.sound.regular, hkept.records, fun key _ => rfl⟩ h
    exact fun key hform => hsame key (ne_completed_of_onForm separated hform)
  refine ⟨s, d, hs, hdocument, ?_, fun q' hq' hne => ?_, fun straight reply hreply q' hq' => ?_⟩
  · obtain ⟨e, he, rfl⟩ := hq
    exact (filledIn_congr hlast ⟨e, he, rfl⟩ d).2 (fills.filledIn hread (separated.free e he))
  · obtain ⟨hfree, hfield, independent⟩ := apart_of_ne loaded separated hq hq' hne
    rw [filledIn_congr hlast hq']
    exact fills.filledIn_iff hread hfree hfield independent
  · have hmem : reply ∈ ⟨p.sectionKey, some q⟩ :: past := List.mem_cons_of_mem _ hreply
    obtain ⟨d', hd', hfilled⟩ := hkept.filled straight p.sectionKey stands.isKey hflow
      (.inl (Json.isName_of_isKey stands.isKey).self) reply hmem q' hq'
    have hsame : d' = d := Option.some.inj (hd'.symm.trans (fills.storedDocument_eq hread))
    rw [filledIn_congr hlast (kept.known reply hreply q' hq'), ← hsame]
    exact hfilled

end

/-- A conversation that is played through: an answer is a turn, and none is a reset. -/
def play (f : Flow) (user : String) :
    List (Option Json) → List Reply × World MemoryStore → List Reply × World MemoryStore
  | [], state => state
  | some answer :: rest, (past, w) => play f user rest
      (f.replies w.store user answer .null ++ past, ((f.processTurn user answer .null).run w).2)
  | none :: rest, (past, w) => play f user rest
      (past, { w with store := w.store.deletePointer user })

theorem interview_play (f : Flow) (user : String) (moves : List (Option Json))
    (state : List Reply × World MemoryStore) (talk : f.Interview user state.1 state.2) :
    f.Interview user (f.play user moves state).1 (f.play user moves state).2 := by
  induction moves generalizing state with
  | nil => exact talk
  | cons move rest ih =>
    cases move with
    | some answer => exact ih _ (.turn (w := state.2) talk rfl)
    | none => exact ih _ (.reset (w := state.2) talk rfl)

/-- What a user has replied by some moves, and the world behind them. -/
def rehearsed (c : Catalog) (moves : List (Option Json)) : List Reply × World MemoryStore :=
  (Flow.mk c none).play "u1" moves ([], untouchedWorld)

theorem interview_rehearsed (c : Catalog) (moves : List (Option Json)) :
    (Flow.mk c none).Interview "u1" (rehearsed c moves).1 (rehearsed c moves).2 :=
  interview_play _ "u1" moves ([], untouchedWorld) (.start untouchedWorld rfl)

/-- A catalog whose first section is set aside while an answer of the second one is missing. -/
def resumable : Json :=
  .obj [
    ("questions", .arr [
      .obj [("qid", .str "Q1"), ("field_key", .str "a"), ("prompt", .str "A?")],
      .obj [("qid", .str "Q2"), ("field_key", .str "b"), ("prompt", .str "B?")],
      .obj [("qid", .str "Q3"), ("field_key", .str "c"), ("prompt", .str "C?")]]),
    ("stages", .arr [
      .obj [("stage_key", .str "s"), ("question_ids", .arr [.str "Q1", .str "Q2"])],
      .obj [("stage_key", .str "t"), ("question_ids", .arr [.str "Q3"])]]),
    ("processes", .arr [
      .obj [("process_key", .str "01"), ("stage_keys", .arr [.str "s"]),
        ("ask_if", .str "NOT present(a) OR present(c)")],
      .obj [("process_key", .str "02"), ("stage_keys", .arr [.str "t"])]])]

theorem wellFormed_resumable : resumable.WellFormed := by
  simp [resumable]

/-- A catalog without rules keeps the answers to its questions apart. -/
structure Suits (c : Catalog) : Prop where
  /-- Nothing is derived. -/
  unruled : c.derivedRules = []
  /-- The questions have fields and places of their own. -/
  separated : c.Separated
  /-- No section is named like the scope of the record of completed sections. -/
  spares : c.SparesFlowScope

instance decidableSuits (c : Catalog) : Decidable (Suits c) :=
  decidable_of_iff (c.derivedRules.isEmpty = true ∧ c.Separated ∧
      ∀ e ∈ c.processes, (e.1 == flowScope) = false)
    ⟨fun h => ⟨List.isEmpty_iff.1 h.1, h.2.1, h.2.2⟩,
      fun h => ⟨List.isEmpty_iff.2 h.unruled, h.separated, h.spares⟩⟩

/-- A document lacks an answer that is stored. -/
def isLost (q : Question) (document : Json) (fields : Fields) : Bool :=
  match Path.get document q.jsonPath, Assoc.valueAt? q.fieldKey fields with
  | .ok .null, some (.str _) => true
  | _, _ => false

theorem not_filledIn_of_isLost {q : Question} {document : Json} {fields : Fields}
    (h : isLost q document fields = true) : ¬ q.FilledIn document fields := by
  rintro ⟨v, hv, hfound⟩
  rw [isLost, hv, hfound] at h
  cases v <;> cases h

/-- The moves of a user who answers the questions of the first section. -/
def passing : List (Option Json) := [some .null, some (.str "x"), some (.str "y")]

/-- When all sections are gone through in order, the document holds all three answers. -/
theorem filledIn_resumable : ∃ c past w w' d, c.Loaded ∧
    (Flow.mk c none).Interview "u1" past w ∧ past.length = 2 ∧
    w' = (((Flow.mk c none).processTurn "u1" (.str "z") .null).run w).2 ∧
    storedDocument ((w'.store.scopes "u1").own (.str "02")) = some d ∧
    ∀ reply ∈ past, ∀ q, reply.accepted = some q →
      q.FilledIn d ((w'.store.scopes "u1").read (.str "02")) := by
  have evaluated : Outcome.Gives (Catalog.ofJson resumable "catalog.json") fun e =>
      Suits e.1 ∧ (rehearsed e.1 passing).1.length = 2 ∧
      Outcome.Gives ((Flow.mk e.1 none).decide (rehearsed e.1 passing).2.store "u1"
        (.str "z") .null) (·.Accepting fun p q _ => p.sectionKey = .str "02" ∧
          Straight (⟨p.sectionKey, some q⟩ :: (rehearsed e.1 passing).1)) := by
    decide +kernel
  obtain ⟨⟨c, warnings⟩, hc, suits, hlength, _, haccept, p, q, a, rfl, hsection, straight⟩ :=
    evaluated
  have loaded : c.Loaded := ⟨resumable, "catalog.json", warnings, wellFormed_resumable, hc⟩
  have talk := interview_rehearsed c passing
  have hrun : ((Flow.mk c none).processTurn "u1" (.str "z") .null).run
      { (rehearsed c passing).2 with now := (rehearsed c passing).2.now } = (_, _) := rfl
  obtain ⟨s, d, -, hdocument, -, -, hall⟩ := filledIn_iff_loaded loaded rfl
    suits.unruled suits.separated suits.spares talk haccept hrun
  rw [hsection] at hdocument hall
  rw [hsection] at straight
  exact ⟨c, _, _, _, d, loaded, talk, hlength, rfl, hdocument, hall straight⟩

/-- The moves of a user who leaves the first section behind, and returns to it. -/
def returning : List (Option Json) :=
  [some .null, some (.str "x"), none, some .null, some (.str "z")]

/-- What its last answer leads to. -/
def returned (c : Catalog) : Except Fault TurnResult × World MemoryStore :=
  ((Flow.mk c none).processTurn "u1" (.str "y") .null).run (rehearsed c returning).2

/-- When the first section is resumed after a reset, its document lacks the answer that the second
one has taken in between. -/
theorem answer_lost_resumable : ∃ (c : Catalog) (past : List Reply) (w : World MemoryStore)
    (p : Pointer) (q : Question) (a : Acceptance) (r : TurnResult) (w' : World MemoryStore)
    (reply : Reply) (q' : Question) (d : Json), c.Loaded ∧ c.derivedRules = [] ∧ c.Separated ∧
    c.SparesFlowScope ∧ (Flow.mk c none).Interview "u1" past w ∧
    (Flow.mk c none).decide w.store "u1" (.str "y") .null = .ok (.accept p q a) ∧
    ((Flow.mk c none).processTurn "u1" (.str "y") .null).run w = (.ok r, w') ∧
    reply ∈ past ∧ reply.accepted = some q' ∧
    storedDocument ((w'.store.scopes "u1").own p.sectionKey) = some d ∧
    ¬ q'.FilledIn d ((w'.store.scopes "u1").read p.sectionKey) := by
  have evaluated : Outcome.Gives (Catalog.ofJson resumable "catalog.json") fun e => Suits e.1 ∧
      Outcome.Gives ((Flow.mk e.1 none).decide (rehearsed e.1 returning).2.store "u1"
        (.str "y") .null) (·.Accepting fun p _ _ => Outcome.Gives (returned e.1).1 fun _ =>
          ∃ d ∈ storedDocument (((returned e.1).2.store.scopes "u1").own p.sectionKey),
            ∃ reply ∈ (rehearsed e.1 returning).1, ∃ q' ∈ reply.accepted,
              isLost q' d (((returned e.1).2.store.scopes "u1").read p.sectionKey) = true) := by
    decide +kernel
  obtain ⟨⟨c, warnings⟩, hc, suits, _, haccept, p, q, a, rfl, r, hr, evaluated⟩ := evaluated
  obtain ⟨d, hdocument, reply, hreply, q', hq', hlost⟩ := evaluated
  have loaded : c.Loaded := ⟨resumable, "catalog.json", warnings, wellFormed_resumable, hc⟩
  exact ⟨c, _, _, p, q, a, r, _, reply, q', d, loaded, suits.unruled, suits.separated, suits.spares,
    interview_rehearsed c returning, haccept, Prod.ext hr rfl, hreply, hq', hdocument,
    not_filledIn_of_isLost hlost⟩

end Flow

end Questionnaire
