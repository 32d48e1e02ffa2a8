import Questionnaire.Proofs.State.Placement
import Questionnaire.Proofs.Turn.Course

/-!
# The succession of sections

The sections that a user enters are those that were completed, in the order of the history, and then
the one where the pointer stands.  A section that is completed in the course of routing is followed
by the one that it forces.  A conversation that is handed over leaves no pointer behind, and the
next turn routes without knowing which section was completed last.

## Main Definitions

* `Routing.Forces` - a section forces its successor
* `MemoryStore.entered` - the sections that were entered for a user
* `Flow.heading?` - the section in which a turn begins
* `Flow.Onward` - what routing has made of the sections of a user
* `Flow.Moves` - what a turn has made of them
* `Flow.Continues` - what happens from a world on

## Main Statements

* `Flow.onward_of_enter` - entering sections one after the other heeds forced successors
* `Flow.moves_of_processTurn` - one turn goes onward, or is handed over
* `Flow.succeeded_iff` - when a forced successor is the next section of a whole run
-/

namespace Questionnaire

open Bookkeeping (flowScope)

/-- A section forces its successor. -/
def Routing.Forces (c : Catalog) (key successor : Json) : Prop :=
  ∃ p, c.process? key = some p ∧ p.forcedNext = successor ∧ successor.isFilled = true

instance decidableForces (c : Catalog) (key : Json) (s : String) :
    Decidable (Routing.Forces c key (.str s)) :=
  match hfound : c.process? key with
  | some p => decidable_of_iff (p.forcedNext = .str s ∧ (Json.str s).isFilled = true)
    ⟨fun h => ⟨p, hfound, h⟩, fun ⟨p', hp', h⟩ => by cases hfound.symm.trans hp'; exact h⟩
  | none => isFalse fun ⟨p, hp, _⟩ => by cases hfound.symm.trans hp

namespace MemoryStore

/-- The section where the pointer of a user stands, if the conversation is going on. -/
def standing? (m : MemoryStore) (user : String) : Option Json :=
  ((m.pointer? user).filter fun p => !p.isTerminal).map (·.sectionKey)

/-- The sections that were entered for a user, in order: those that were completed, and then the one
where the pointer stands. -/
def entered (m : MemoryStore) (user : String) : List Json :=
  m.finished user ++ (m.standing? user).toList

/-- The conversation of a user is over. -/
def IsOver (m : MemoryStore) (user : String) : Prop :=
  ∃ p, m.pointer? user = some p ∧ p.isTerminal = true

variable {m m' : MemoryStore} {user : String} {p : Pointer}

theorem standing?_of_pointer? (h : m.pointer? user = some p) (hactive : p.isTerminal = false) :
    m.standing? user = some p.sectionKey := by
  rw [standing?, h, Option.filter_some, hactive]
  rfl

theorem IsOver.standing?_eq (isOver : m.IsOver user) : m.standing? user = none := by
  obtain ⟨p, hp, hterminal⟩ := isOver
  rw [standing?, hp, Option.filter_some, hterminal]
  rfl

theorem standing?_of_none (h : m.pointer? user = none) : m.standing? user = none := by
  rw [standing?, h]
  rfl

theorem entered_of_none (h : m.standing? user = none) : m.entered user = m.finished user := by
  rw [entered, h, Option.toList_none, List.append_nil]

theorem entered_congr (hpointer : m'.pointer? user = m.pointer? user)
    (hrecords : m'.records user = m.records user) : m'.entered user = m.entered user := by
  rw [entered, entered, finished, finished, standing?, standing?, hpointer, hrecords]

end MemoryStore

/-- An event that is a turn. -/
def Event.IsTurn : Event → Prop
  | .turn _ _ => True
  | _ => False

theorem Event.IsTurn.isOwn {e : Event} (h : e.IsTurn) : e.IsOwn := by
  cases e with
  | turn | reset => exact trivial
  | write => cases h

namespace Flow

/-- The section in which a turn begins: the one where the pointer stands, or without a pointer the
next one. -/
def heading? (c : Catalog) (m : MemoryStore) (user : String) : Option Json :=
  match m.pointer? user with
  | none => Routing.next c (m.completed user) ((m.scopes user).read flowScope)
  | some _ => m.standing? user

/-- What routing has made of the sections of a user, from those that were completed before and the
one in which it began. -/
structure Onward (c : Catalog) (done : List Json) (m : MemoryStore) (user : String)
    (target : Option Json) : Prop where
  /-- Sections are entered from there on. -/
  entered : ∃ keys, m.entered user = done ++ keys ∧ keys.head? = target
  /-- A section that was completed on the way is followed by the one that it forces, unless that was
  completed before. -/
  heeded : ∀ pre key post successor, m.finished user = pre ++ key :: post →
    done.length ≤ pre.length → Routing.Forces c key successor → successor ∉ pre ++ [key] →
    ∃ after, m.entered user = pre ++ key :: successor :: after
  /-- With no section to begin in the conversation is over. -/
  isOver : target = none → m.IsOver user
  /-- The pointer stands in a section of the catalog. -/
  known : ∀ key, m.standing? user = some key → (c.process? key).isSome = true

/-- What a turn has made of the sections of a user. -/
inductive Moves (c : Catalog) (m m' : MemoryStore) (user : String) : TurnKind → Prop where
  /-- It goes onward from the section in which it began. -/
  | onward {kind : TurnKind} (h : kind ≠ .handoff)
      (onward : Onward c (m.finished user) m' user (heading? c m user)) : Moves c m m' user kind
  /-- It completes the section and leaves no pointer behind. -/
  | handedOver {key : Json} (stood : m.standing? user = some key)
      (finished : m'.finished user = m.finished user ++ [key])
      (pointer : m'.pointer? user = none) : Moves c m m' user .handoff

variable {c : Catalog} {f : Flow} {user : String} {channel : Json} {lead : String}
  {note : TurnNote} {w w' : World MemoryStore} {m m' : MemoryStore} {r : TurnResult} {p : Pointer}
  {target : Option Json} {section_ : Json}

/-! ## Routing -/

/-- Where no section was completed nothing has to be heeded. -/
theorem onward_of_staying {done : List Json} (hfinished : m.finished user = done)
    (hstanding : m.standing? user = target)
    (known : ∀ key, target = some key → (c.process? key).isSome = true)
    (isOver : target = none → m.IsOver user) : Onward c done m user target := by
  refine ⟨⟨target.toList, ?_, ?_⟩, ?_, isOver, ?_⟩
  · rw [MemoryStore.entered, hfinished, hstanding]
  · cases target <;> rfl
  · intro pre key post successor hsplit hlength
    rw [← hfinished, hsplit, List.length_append, List.length_cons] at hlength
    omega
  · rw [hstanding]
    exact known

theorem finished_completing (m : MemoryStore) (user : String) {record : CompletionRecord}
    (hrecord : record.sectionKey = section_) :
    (m.completing user section_ record).finished user = m.finished user ++ [section_] := by
  rw [MemoryStore.finished, records_completing, List.map_append, List.map_singleton, hrecord]
  rfl

section

variable (accepted : f.catalog.Accepted) (trimmed : f.catalog.HasTrimmedKeys)

include accepted trimmed

/-- Behind a completed section routing leads to the one that it forces. -/
theorem following_of_forces {record : CompletionRecord} {successor : Json}
    (progress : Progress f.catalog m user)
    (known : (f.catalog.process? section_).isSome = true) (fresh : section_ ∉ m.completed user)
    (forces : Routing.Forces f.catalog section_ successor)
    (isOpen : successor ∉ m.finished user ++ [section_]) :
    f.following (m.completing user section_ record) user
      (Routing.complete (m.completed user) section_) section_ = some successor := by
  obtain ⟨process, hprocess, rfl, hfilled⟩ := forces
  have label := Routing.isLabel_of_process? accepted trimmed known
  obtain ⟨e, he, -, rfl⟩ := Assoc.mem_of_valueAt? hprocess
  have label' := Routing.isLabel_of_process? accepted trimmed
    (Catalog.hasKey_of_forcedNext accepted he hfilled).2
  rw [Routing.complete_of_not_mem label fresh, progress.completed_eq accepted trimmed]
  have hfree : (m.finished user ++ [section_]).contains e.2.forcedNext = false :=
    Bool.eq_false_iff.2 fun h => isOpen ((Routing.contains_iff_of_isLabel label').1 h)
  unfold following Routing.nextAfter Routing.successor?
  rw [hprocess]
  dsimp only
  rw [hfilled, hfree]
  rfl

/-- Routing that goes on behind a completed section heeds what that section forces. -/
theorem Onward.of_completing {record : CompletionRecord} (progress : Progress f.catalog m user)
    (known : (f.catalog.process? section_).isSome = true) (fresh : section_ ∉ m.completed user)
    (onward : Onward f.catalog (m.finished user ++ [section_]) m' user
      (f.following (m.completing user section_ record) user
        (Routing.complete (m.completed user) section_) section_)) :
    Onward f.catalog (m.finished user) m' user (some section_) := by
  obtain ⟨keys, hentered, hhead⟩ := onward.entered
  refine ⟨⟨section_ :: keys, by rw [hentered, List.append_assoc]; rfl, rfl⟩, ?_, nofun,
    onward.known⟩
  intro pre key post successor hsplit hlength forces isOpen
  rcases Nat.lt_or_eq_of_le hlength with hlater | hfirst
  · refine onward.heeded pre key post successor hsplit ?_ forces isOpen
    rw [List.length_append, List.length_singleton]
    omega
  · -- the section itself is the first one that was completed
    have hsame : pre ++ key :: (post ++ (m'.standing? user).toList) =
        m.finished user ++ section_ :: keys := by
      rw [MemoryStore.entered, hsplit, List.append_assoc, List.append_assoc] at hentered
      exact hentered
    obtain ⟨rfl, hrest⟩ := List.append_inj hsame hfirst.symm
    obtain ⟨rfl, -⟩ := List.cons.inj hrest
    rw [following_of_forces accepted trimmed progress known fresh forces isOpen] at hhead
    obtain ⟨after, rfl⟩ : ∃ after, keys = successor :: after := by
      cases keys with
      | nil => cases hhead
      | cons k after =>
        cases hhead
        exact ⟨after, rfl⟩
    exact ⟨after, by rw [hentered, List.append_assoc]; rfl⟩

/-- Entering sections one after the other goes onward from the first of them. -/
theorem onward_of_enter {left attempts : Nat} {states : List FlowStatus}
    (progress : Progress f.catalog w.store user)
    (h : (f.enter user channel lead note left attempts target states).run w = (.ok r, w')) :
    r.kind ≠ .handoff ∧ Onward f.catalog (w.store.finished user) w'.store user target := by
  refine f.run_enter_induct_target user channel lead note
    (P := fun w target _ outcome => Progress f.catalog w.store user → ∀ {r w'},
      outcome = (.ok r, w') →
      r.kind ≠ .handoff ∧ Onward f.catalog (w.store.finished user) w'.store user target)
    ?ends ?fails ?asks ?passes left attempts target states w progress h
  case ends =>
    intro w states _ r w' h
    obtain ⟨hkind, -⟩ := ends_of_terminal (congrArg Prod.fst h)
    cases congrArg Prod.snd h
    have isOver : (w.store.savePointer user (ended w)).IsOver user :=
      ⟨_, MemoryStore.pointer?_savePointer_self w.store user (ended w), rfl⟩
    exact ⟨hkind ▸ nofun, onward_of_staying rfl isOver.standing?_eq nofun fun _ => isOver⟩
  case fails =>
    intro w section_ states e sessions _ r w' h
    cases h
  case asks =>
    intro w states left attempts section_ s stageKey qid q hentry _ r w' h
    obtain ⟨hkind, -⟩ := ends_of_opening (congrArg Prod.fst h)
    cases congrArg Prod.snd h
    refine ⟨hkind ▸ nofun, onward_of_staying rfl
      (MemoryStore.standing?_of_pointer? (p := opened w section_ stageKey qid)
        (MemoryStore.pointer?_savePointer_self w.store user _) rfl) (fun key hkey => ?_) nofun⟩
    cases hkey
    exact (fresh_of_entry accepted trimmed hentry).1
  case passes =>
    intro w states left attempts section_ outcome hentry ih progress r w' h
    obtain ⟨hknown, hfresh⟩ := fresh_of_entry accepted trimmed hentry
    obtain ⟨hprogress, hfinished⟩ := progress.completing accepted trimmed hknown hfresh
      (r := ⟨section_, .str CompletionRecord.mainPosition, .str (sessionText (w.sessions + 1)),
        .str w.now⟩) rfl
    obtain ⟨hkind, onward⟩ := ih hprogress h
    rw [passed, hfinished] at onward
    exact ⟨hkind, onward.of_completing accepted trimmed progress hknown hfresh⟩

/-! ## One turn -/

/-- Leaving a section goes onward from it. -/
theorem onward_of_leave {s : State} {states : List FlowStatus}
    (progress : Progress f.catalog w.store user)
    (known : (f.catalog.process? p.sectionKey).isSome = true)
    (fresh : p.sectionKey ∉ w.store.completed user) (hactive : p.isTerminal = false)
    (h : (f.leave user p s states channel note).run w = (.ok r, w')) :
    r.kind ≠ .handoff ∧
      Onward f.catalog (w.store.finished user) w'.store user (some p.sectionKey) := by
  rw [run_leave] at h
  rcases hdeparture : f.departure p s with e | _ | q <;> rw [hdeparture] at h
  · cases h
  · dsimp only at h
    cases hclosing : f.closing p s with
    | error e =>
      rw [hclosing] at h
      cases h
    | ok lead =>
      rw [hclosing] at h
      -- the section is recorded before the next one is entered
      obtain ⟨hprogress, hfinished⟩ := progress.completing accepted trimmed known fresh
        (r := ⟨p.sectionKey, p.stageKey.filledOr (.str CompletionRecord.mainPosition), p.sessionId,
          .str w.now⟩) rfl
      obtain ⟨hkind, onward⟩ := onward_of_enter accepted trimmed (w := departed w user p)
        hprogress h
      rw [departed, hfinished] at onward
      exact ⟨hkind, onward.of_completing accepted trimmed progress known fresh⟩
  · obtain ⟨view, -, hprompt⟩ := Outcome.bind_eq_ok_iff.1 (congrArg Prod.fst h)
    cases congrArg Prod.snd h
    refine ⟨(ends_of_prompt hprompt).kind ▸ nofun, onward_of_staying rfl
      (MemoryStore.standing?_of_pointer? (p := p.advance q.qid q.stageKey)
        (MemoryStore.pointer?_savePointer_self w.store user _) hactive) (fun key hkey => ?_) nofun⟩
    cases hkey
    exact known

end

theorem heading?_of_stands (stands : f.Stands m user p) :
    heading? c m user = some p.sectionKey := by
  rw [heading?, stands.pointer]
  exact MemoryStore.standing?_of_pointer? stands.pointer stands.isActive

theorem heading?_of_over (isOver : m.IsOver user) : heading? c m user = none := by
  obtain ⟨p, hp, -⟩ := id isOver
  rw [heading?, hp]
  exact isOver.standing?_eq

/-- A question that is asked in the section where the pointer stands does not lead out of it. -/
theorem moves_of_staying {p' : Pointer} (stands : f.Stands m user p) (hkind : r.kind = .prompt)
    (hpointer : m'.pointer? user = some p') (hactive : p'.isTerminal = false)
    (hsection : p'.sectionKey = p.sectionKey) (hfinished : m'.finished user = m.finished user) :
    Moves f.catalog m m' user r.kind := by
  rw [hkind]
  refine .onward nofun (onward_of_staying hfinished ?_ (fun key hkey => ?_) fun hnone => ?_)
  · rw [heading?_of_stands stands, ← hsection]
    exact MemoryStore.standing?_of_pointer? hpointer hactive
  · rw [heading?_of_stands stands] at hkey
    cases hkey
    exact stands.isKnown
  · rw [heading?_of_stands stands] at hnone
    cases hnone

theorem kind_of_asking {q : Question} {error : Option TurnError}
    (h : f.asking p q channel error = .ok r) : r.kind = .prompt := by
  obtain ⟨view, -, hprompt⟩ := Outcome.bind_eq_ok_iff.1 h
  exact (ends_of_prompt hprompt).kind

/-- A user whose sections can be accounted for: the two records of completed sections agree, and the
pointer stands in a section of the catalog that is not completed. -/
structure Underway (c : Catalog) (m : MemoryStore) (user : String) : Prop where
  /-- The two records agree. -/
  progress : Progress c m user
  /-- The section of the pointer is not completed. -/
  unfinished : Unfinished m user
  /-- The section of the pointer is one of the catalog. -/
  known : ∀ key, m.standing? user = some key → (c.process? key).isSome = true

section

variable (accepted : f.catalog.Accepted) (trimmed : f.catalog.HasTrimmedKeys)

include accepted trimmed

theorem moves_of_start (progress : Progress f.catalog w.store user)
    (hpointer : w.store.pointer? user = none)
    (h : (f.start user channel).run w = (.ok r, w')) :
    Moves f.catalog w.store w'.store user r.kind := by
  rw [run_start] at h
  obtain ⟨hkind, onward⟩ := onward_of_enter accepted trimmed progress h
  refine .onward hkind ?_
  rw [heading?, hpointer]
  exact onward

/-- A reason to hand the conversation over completes the section, and so does an answer to the last
question of the section. -/
theorem moves_of_carryAcceptance {a : Acceptance} (progress : Progress f.catalog w.store user)
    (stands : f.Stands w.store user p) (fresh : p.sectionKey ∉ w.store.completed user)
    (hpatch : ∀ e ∈ a.patch, e.1.isKey = true ∧ (e.1 == Bookkeeping.completed) = false)
    (h : (f.carryAcceptance user p a channel).run w = (.ok r, w')) :
    Moves f.catalog w.store w'.store user r.kind := by
  obtain ⟨-, hr, rfl⟩ | ⟨nq, -, -, hr, rfl⟩ | ⟨-, -, h⟩ := acceptance_cases stands.isKey h
  · rw [(ends_of_handoff hr.symm).kind]
    refine .handedOver (MemoryStore.standing?_of_pointer? stands.pointer stands.isActive) ?_
      (MemoryStore.pointer?_deletePointer_self _ user)
    exact finished_completing (w.store.patched user p.sectionKey a.patch) user rfl
  · obtain ⟨intro, -, hprompt⟩ := Outcome.bind_eq_ok_iff.1 hr.symm
    exact moves_of_staying stands (ends_of_prompt hprompt).kind
      (MemoryStore.pointer?_savePointer_self _ user (p.advance nq.qid nq.stageKey)) stands.isActive
      rfl rfl
  · -- what is stored leaves the record alone, so the section is still to be completed
    have hfresh : p.sectionKey ∉ (w.store.patched user p.sectionKey a.patch).completed user := by
      rw [progress.completed_patched accepted trimmed stands.isKey hpatch]
      exact fresh
    obtain ⟨hkind, onward⟩ := onward_of_leave accepted trimmed
      (w := { w with store := w.store.patched user p.sectionKey a.patch })
      (progress.patched stands.isKey hpatch).1 stands.isKnown hfresh stands.isActive h
    exact .onward hkind (heading?_of_stands stands ▸ onward)

theorem moves_of_carryOut (spares : f.SparesRecord) {answer : Json} {d : Decision}
    (underway : Underway f.catalog w.store user)
    (grounded : d.Grounded f w.store user answer channel)
    (h : (f.carryOut user channel d).run w = (.ok r, w')) :
    Moves f.catalog w.store w'.store user r.kind := by
  obtain ⟨progress, unfinished, known⟩ := underway
  cases d with
  | closed =>
    have isOver : w.store.IsOver user := grounded
    rw [run_closed] at h
    cases congrArg Prod.snd h
    rw [(ends_of_terminal (congrArg Prod.fst h)).kind]
    refine .onward nofun ?_
    rw [heading?_of_over isOver]
    exact onward_of_staying rfl isOver.standing?_eq nofun fun _ => isOver
  | begin isLost =>
    rw [run_begin] at h
    cases isLost with
    | false => exact moves_of_start accepted trimmed progress grounded h
    | true =>
      -- the section of the pointer is one of the catalog
      obtain ⟨p, hp, hactive, hunknown⟩ := grounded
      have hknown := known p.sectionKey (MemoryStore.standing?_of_pointer? hp hactive)
      rw [hunknown] at hknown
      cases hknown
  | redirect p s e =>
    obtain ⟨stands, -⟩ := grounded
    rw [run_redirect] at h
    obtain ⟨intro, -, hprompt⟩ := Outcome.bind_eq_ok_iff.1 (congrArg Prod.fst h)
    cases congrArg Prod.snd h
    exact moves_of_staying stands (ends_of_prompt hprompt).kind
      (MemoryStore.pointer?_savePointer_self _ user (p.advance e.qid e.stageKey)) stands.isActive
      rfl rfl
  | depart p s =>
    obtain ⟨hkind, onward⟩ := onward_of_leave accepted trimmed progress grounded.isKnown
      (unfinished p grounded.pointer grounded.isActive) grounded.isActive h
    exact .onward hkind (heading?_of_stands grounded ▸ onward)
  | reask p q =>
    obtain ⟨stands, -⟩ := grounded
    rw [run_reask] at h
    cases congrArg Prod.snd h
    exact moves_of_staying stands (kind_of_asking (congrArg Prod.fst h)) stands.pointer
      stands.isActive rfl rfl
  | reject p stored q error =>
    obtain ⟨stands, -⟩ := grounded
    rw [run_reject stands.isKey] at h
    cases congrArg Prod.snd h
    refine moves_of_staying stands (kind_of_asking (congrArg Prod.fst h))
      ((pointer?_cleared _ _ _ _).trans stands.pointer) stands.isActive rfl ?_
    unfold cleared
    split <;> rfl
  | collect p q c =>
    obtain ⟨stands, -⟩ := grounded
    rw [run_collect stands.isKey] at h
    obtain ⟨text, -, hprompt⟩ := Outcome.bind_eq_ok_iff.1 (congrArg Prod.fst h)
    cases congrArg Prod.snd h
    exact moves_of_staying stands (ends_of_prompt hprompt).kind stands.pointer stands.isActive rfl
      rfl
  | accept p q a =>
    have hpatch := spares.patch grounded
    obtain ⟨stands, -⟩ := grounded
    exact moves_of_carryAcceptance accepted trimmed progress stands
      (unfinished p stands.pointer stands.isActive) hpatch h

theorem moves_of_processTurn (spares : f.SparesRecord) {answer : Json}
    (underway : Underway f.catalog w.store user)
    (h : (f.processTurn user answer channel).run w = (.ok r, w')) :
    Moves f.catalog w.store w'.store user r.kind := by
  obtain ⟨d, hdecide, hrun, -⟩ := told_of_processTurn h
  exact moves_of_carryOut accepted trimmed spares underway (grounded_of_decide hdecide) hrun

end

/-! ## Many turns -/

namespace Moves

variable {kind : TurnKind}

/-- No section that was entered is taken back. -/
theorem entered_prefix (moves : Moves c m m' user kind) :
    m.entered user <+: m'.entered user := by
  cases moves with
  | onward _ onward =>
    obtain ⟨keys, hentered, hhead⟩ := onward.entered
    rw [hentered, MemoryStore.entered]
    refine (List.prefix_append_right_inj _).2 ?_
    cases hstanding : m.standing? user with
    | none => exact List.nil_prefix
    | some key =>
      -- a pointer that stands in a section is where the turn begins
      have hheading : heading? c m user = some key := by
        unfold heading?
        split
        · rename_i hnone
          rw [MemoryStore.standing?_of_none hnone] at hstanding
          cases hstanding
        · exact hstanding
      rw [hheading] at hhead
      cases keys with
      | nil => cases hhead
      | cons k rest =>
        cases hhead
        exact ⟨rest, rfl⟩
  | handedOver stood finished pointer =>
    rw [MemoryStore.entered, stood, MemoryStore.entered, finished,
      MemoryStore.standing?_of_none pointer]
    exact ⟨[], rfl⟩

/-- Once the conversation is over no section is entered any more. -/
theorem of_over (moves : Moves c m m' user kind) (isOver : m.IsOver user) :
    m'.IsOver user ∧ m'.entered user = m.entered user := by
  cases moves with
  | onward _ onward =>
    rw [heading?_of_over isOver] at onward
    obtain ⟨keys, hentered, hhead⟩ := onward.entered
    rw [List.head?_eq_none_iff.1 hhead, List.append_nil] at hentered
    exact ⟨onward.isOver rfl, hentered.trans (MemoryStore.entered_of_none isOver.standing?_eq).symm⟩
  | handedOver stood =>
    rw [isOver.standing?_eq] at stood
    cases stood

theorem known (moves : Moves c m m' user kind) {key : Json}
    (h : m'.standing? user = some key) : (c.process? key).isSome = true := by
  cases moves with
  | onward _ onward => exact onward.known key h
  | handedOver _ _ pointer =>
    rw [MemoryStore.standing?_of_none pointer] at h
    cases h

end Moves

/-- What happens from a world on, the last event first. -/
inductive Continues (f : Flow) (w : World MemoryStore) :
    List Event → World MemoryStore → Prop where
  /-- Nothing has happened. -/
  | nothing : Continues f w [] w
  /-- One more event. -/
  | step {log : List Event} {w' w'' : World MemoryStore} {e : Event}
      (run : Continues f w log w') (h : f.Step w' e w'') : Continues f w (e :: log) w''

variable {e : Event} {log : List Event}

theorem heading?_congr (hpointer : m'.pointer? user = m.pointer? user)
    (hscopes : m'.scopes user = m.scopes user) : heading? c m' user = heading? c m user := by
  rw [heading?, heading?, MemoryStore.standing?, MemoryStore.standing?, MemoryStore.completed,
    MemoryStore.completed, hpointer, hscopes]

section

variable (accepted : f.catalog.Accepted) (trimmed : f.catalog.HasTrimmedKeys)
  (spares : f.SparesRecord)

include accepted trimmed spares

/-- A turn of a user moves on in the sections of that user, and any other turn leaves them alone. -/
theorem moves_of_step (underway : Underway f.catalog w.store user) (isTurn : e.IsTurn)
    (h : f.Step w e w') :
    (∃ r, e = .turn user r ∧ Moves f.catalog w.store w'.store user r.kind) ∨
      ∃ other r, user ≠ other ∧ e = .turn other r ∧
        MemoryStore.Elsewhere other w.store w'.store := by
  cases h with
  | @turn _ other answer channel now r hturn =>
    by_cases hother : user = other
    · subst hother
      exact .inl ⟨r, rfl, moves_of_processTurn accepted trimmed spares (w := { w with now := now })
        underway hturn⟩
    · exact .inr ⟨other, r, hother, rfl,
        elsewhere_of_processTurn (w := { w with now := now }) hturn⟩
  | reset | write => cases isTurn

theorem underway_of_step (underway : Underway f.catalog w.store user) (isTurn : e.IsTurn)
    (h : f.Step w e w') : Underway f.catalog w'.store user := by
  have advances := advances_of_step accepted trimmed spares isTurn.isOwn h user underway.progress
    underway.unfinished
  refine ⟨advances.progress, advances.unfinished, fun key hkey => ?_⟩
  obtain ⟨r, -, moves⟩ | ⟨other, r, hother, -, elsewhere⟩ :=
    moves_of_step accepted trimmed spares underway isTurn h
  · exact moves.known hkey
  · rw [MemoryStore.standing?, elsewhere.pointer user hother] at hkey
    exact underway.known key hkey

theorem underway_of_conversation (talk : f.Conversation log w) (turns : ∀ e ∈ log, e.IsTurn) :
    Underway f.catalog w.store user := by
  induction talk with
  | start w h =>
    rw [h]
    exact ⟨progress_empty _ user, nofun, nofun⟩
  | step talk h ih =>
    exact underway_of_step accepted trimmed spares
      (ih fun e he => turns e (List.mem_cons_of_mem _ he)) (turns _ List.mem_cons_self) h

/-- However a run of turns goes on, no section that was entered is taken back. -/
theorem entered_prefix_of_continues (underway : Underway f.catalog w.store user)
    (run : f.Continues w log w') (turns : ∀ e ∈ log, e.IsTurn) :
    Underway f.catalog w'.store user ∧ w.store.entered user <+: w'.store.entered user := by
  induction run with
  | nothing => exact ⟨underway, List.prefix_rfl⟩
  | step run h ih =>
    obtain ⟨hunderway, hprefix⟩ := ih fun e he => turns e (List.mem_cons_of_mem _ he)
    have isTurn := turns _ List.mem_cons_self
    refine ⟨underway_of_step accepted trimmed spares hunderway isTurn h, hprefix.trans ?_⟩
    obtain ⟨r, -, moves⟩ | ⟨other, r, hother, -, elsewhere⟩ :=
      moves_of_step accepted trimmed spares hunderway isTurn h
    · exact moves.entered_prefix
    · rw [MemoryStore.entered_congr (elsewhere.pointer user hother) (elsewhere.records user hother)]

/-- Without a pointer nothing happens to the sections of a user until the next turn, and that turn
begins in the next section.  With none left the conversation is over for good. -/
theorem entered_of_continues (underway : Underway f.catalog w.store user)
    (hpointer : w.store.pointer? user = none) (run : f.Continues w log w')
    (turns : ∀ e ∈ log, e.IsTurn) :
    ((∀ r, .turn user r ∉ log) ∧ w'.store.pointer? user = none ∧
        w'.store.records user = w.store.records user ∧
        w'.store.scopes user = w.store.scopes user) ∨
      (∃ r, .turn user r ∈ log) ∧ ∃ after,
        w'.store.entered user = w.store.finished user ++ after ∧
        after.head? = heading? f.catalog w.store user ∧ (after = [] → w'.store.IsOver user) := by
  induction run with
  | nothing => exact .inl ⟨by simp, hpointer, rfl, rfl⟩
  | @step log w₁ w₂ e run h ih =>
    have turns' := fun e he => turns e (List.mem_cons_of_mem _ he)
    have isTurn := turns _ List.mem_cons_self
    obtain ⟨underway₁, -⟩ := entered_prefix_of_continues accepted trimmed spares underway run turns'
    rcases ih turns' with ⟨hnone, hpointer₁, hrecords, hscopes⟩ |
        ⟨⟨r', hr'⟩, after, hentered, hhead, hover⟩ <;>
      obtain ⟨r, rfl, moves⟩ | ⟨other, r, hother, rfl, elsewhere⟩ :=
        moves_of_step accepted trimmed spares underway₁ isTurn h
    · refine .inr ⟨⟨r, List.mem_cons_self⟩, ?_⟩
      generalize r.kind = kind at moves
      cases moves with
      | onward _ onward =>
        obtain ⟨keys, hkeys, hhead⟩ := onward.entered
        have hfinished : w₁.store.finished user = w.store.finished user := by
          rw [MemoryStore.finished, MemoryStore.finished, hrecords]
        have hheading : heading? f.catalog w₁.store user = heading? f.catalog w.store user :=
          heading?_congr (hpointer₁.trans hpointer.symm) hscopes
        refine ⟨keys, hfinished ▸ hkeys, hheading ▸ hhead, fun hempty => ?_⟩
        subst hempty
        exact onward.isOver hhead.symm
      | handedOver stood =>
        rw [MemoryStore.standing?_of_none hpointer₁] at stood
        cases stood
    · refine .inl ⟨fun r' hr' => ?_, (elsewhere.pointer user hother).trans hpointer₁,
        (elsewhere.records user hother).trans hrecords,
        (elsewhere.scopes user hother).trans hscopes⟩
      rcases List.mem_cons.1 hr' with heq | hmem
      · cases heq
        exact hother rfl
      · exact hnone r' hmem
    · refine .inr ⟨⟨r', List.mem_cons_of_mem _ hr'⟩, ?_⟩
      cases after with
      | nil =>
        -- the conversation is over, so nothing is entered any more
        obtain ⟨hover', hsame⟩ := moves.of_over (hover rfl)
        exact ⟨[], hsame.trans hentered, hhead, fun _ => hover'⟩
      | cons key rest =>
        obtain ⟨more, hmore⟩ := moves.entered_prefix
        refine ⟨key :: (rest ++ more), ?_, hhead, fun h => absurd h (List.cons_ne_nil _ _)⟩
        rw [← hmore, hentered, List.append_assoc]
        rfl
    · refine .inr ⟨⟨r', List.mem_cons_of_mem _ hr'⟩, after, ?_, hhead, fun hempty => ?_⟩
      · rw [MemoryStore.entered_congr (elsewhere.pointer user hother)
          (elsewhere.records user hother), hentered]
      · obtain ⟨p, hp, hterminal⟩ := hover hempty
        exact ⟨p, (elsewhere.pointer user hother).trans hp, hterminal⟩

end

/-- In what comes after others, an element that is not among the others stands behind them. -/
theorem length_le_of_not_mem {done pre post : List Json} {key : Json}
    (h : done <+: pre ++ key :: post) (fresh : key ∉ done) : done.length ≤ pre.length := by
  by_contra hlt
  have hlength : (pre ++ [key]).length ≤ done.length := by
    rw [List.length_append, List.length_singleton]
    omega
  have hprefix : pre ++ [key] <+: pre ++ key :: post := ⟨post, by simp⟩
  exact fresh ((List.prefix_of_prefix_length_le hprefix h hlength).subset (by simp))

/-- In a run of turns of an accepted catalog, whenever a section is completed while the one that it
forces is not, that one is the next section that is entered exactly if the turn that completes the
section does not hand the conversation over, or if the user has had a further turn and the next
section in the order of routing was the forced one by then. -/
theorem succeeded_iff (accepted : f.catalog.Accepted) (trimmed : f.catalog.HasTrimmedKeys)
    (spares : f.SparesRecord) {earlier later : List Event} {w'' : World MemoryStore}
    (talk : f.Conversation earlier w) (turn : f.Step w (.turn user r) w')
    (run : f.Continues w' later w'') (turns : ∀ e ∈ later ++ earlier, e.IsTurn)
    {pre post : List Json} {key successor : Json}
    (completes : w'.store.finished user = pre ++ key :: post)
    (fresh : key ∉ w.store.finished user) (forces : Routing.Forces f.catalog key successor)
    (isOpen : successor ∉ pre ++ [key]) :
    ∃ after, w''.store.entered user = pre ++ key :: after ∧
      (after.head? = some successor ↔ r.kind ≠ .handoff ∨
        (∃ r', .turn user r' ∈ later) ∧ Routing.next f.catalog (w'.store.completed user)
          ((w'.store.scopes user).read flowScope) = some successor) := by
  have turns_later := fun e he => turns e (List.mem_append_left _ he)
  have underway : Underway f.catalog w.store user := underway_of_conversation accepted trimmed
    spares talk fun e he => turns e (List.mem_append_right _ he)
  have underway' : Underway f.catalog w'.store user :=
    underway_of_step accepted trimmed spares underway (e := .turn user r) trivial turn
  have grows := (advances_of_step accepted trimmed spares (e := .turn user r) trivial turn user
    underway.progress underway.unfinished).grows
  have hlength := length_le_of_not_mem (completes ▸ grows) fresh
  have moves : Moves f.catalog w.store w'.store user r.kind := by
    cases turn with
    | @turn _ _ answer channel now _ h =>
      exact moves_of_processTurn accepted trimmed spares (w := { w with now := now }) underway h
  generalize r.kind = kind at moves
  cases moves with
  | onward hkind onward =>
    obtain ⟨after, hentered⟩ := onward.heeded pre key post successor completes hlength forces isOpen
    obtain ⟨-, more, hmore⟩ := entered_prefix_of_continues accepted trimmed spares underway' run
      turns_later
    refine ⟨successor :: (after ++ more), ?_, iff_of_true rfl (.inl hkind)⟩
    rw [← hmore, hentered, List.append_assoc]
    rfl
  | handedOver stood finished pointer =>
    -- the one section that the turn completes is the given one
    have hpost : post = [] := by
      have hcount := congrArg List.length (finished.symm.trans completes)
      rw [List.length_append, List.length_append, List.length_singleton, List.length_cons] at hcount
      exact List.length_eq_zero_iff.1 (by omega)
    rw [hpost] at completes
    rcases entered_of_continues accepted trimmed spares underway' pointer run turns_later with
        ⟨hnone, hpointer, hrecords, -⟩ | ⟨hsome, after, hentered, hhead, -⟩
    · refine ⟨[], ?_, iff_of_false nofun ?_⟩
      · rw [MemoryStore.entered_of_none (MemoryStore.standing?_of_none hpointer), ← completes,
          MemoryStore.finished, hrecords]
        rfl
      · rintro (hkind | ⟨⟨r', hr'⟩, -⟩)
        · exact hkind rfl
        · exact hnone r' hr'
    · rw [heading?, pointer] at hhead
      refine ⟨after, by rw [hentered, completes, List.append_assoc]; rfl, ?_⟩
      rw [hhead]
      exact ⟨fun h => .inr ⟨hsome, h⟩, fun h => (h.resolve_left fun hkind => hkind rfl).2⟩

/-- A turn returns, and what it leads to has a property. -/
def Returns (f : Flow) (w : World MemoryStore) (user : String) (answer : Json)
    (P : TurnResult → World MemoryStore → Prop) : Prop :=
  ∃ r w', (f.processTurn user answer .null).run w = (.ok r, w') ∧ P r w'

instance decidableReturns (f : Flow) (w : World MemoryStore) (user : String) (answer : Json)
    (P : TurnResult → World MemoryStore → Prop) [∀ r w', Decidable (P r w')] :
    Decidable (f.Returns w user answer P) :=
  match hrun : (f.processTurn user answer .null).run w with
  | (.ok r, w') => decidable_of_iff (P r w')
    ⟨fun h => ⟨r, w', hrun, h⟩, fun ⟨_, _, hrun', h⟩ => by cases hrun.symm.trans hrun'; exact h⟩
  | (.error _, _) => isFalse fun ⟨_, _, hrun', _⟩ => by cases hrun.symm.trans hrun'

/-- An answer that completes the first of three sections leads to the last one, which it forces. -/
theorem succeeded_iff_relay : ∃ (c : Catalog) (r r' : TurnResult) (w w' : World MemoryStore),
    c.Accepted ∧ Conversation (Flow.mk c none) [.turn "u1" r] w ∧
    Step (Flow.mk c none) w (.turn "u1" r') w' ∧
    Routing.Forces c (.str "01") (.str "03") ∧ r'.kind = .prompt ∧
    ∃ after, w'.store.entered "u1" = .str "01" :: after ∧ after.head? = some (.str "03") := by
  have evaluated : Outcome.Gives (Catalog.ofJson Catalog.relay "catalog.json") fun e =>
      (∀ s ∈ e.1.processes, s.1.isTrimmed = true) ∧ e.1.derivedRules.isEmpty = true ∧
      (e.1.questions.all fun q => !(q.2.fieldKey == Bookkeeping.completed)) = true ∧
      Routing.Forces e.1 (.str "01") (.str "03") ∧
      (Flow.mk e.1 none).Returns untouchedWorld "u1" .null fun _ w =>
        w.store.finished "u1" = [] ∧
        (Flow.mk e.1 none).Returns w "u1" (.str "no") fun r' w' =>
          r'.kind = .prompt ∧ w'.store.finished "u1" = [.str "01"] := by
    decide +kernel
  obtain ⟨⟨c, warnings⟩, hc, trimmed, hrules, hquestions, forces, r, w, hfirst, hnone, r', w',
    hsecond, hkind, hdone⟩ := evaluated
  have accepted : (Flow.mk c none).catalog.Accepted := ⟨_, "catalog.json", warnings, hc⟩
  have talk : Conversation (Flow.mk c none) [.turn "u1" r] w :=
    .step (.start untouchedWorld rfl) (.turn hfirst)
  have turn : Step (Flow.mk c none) w (.turn "u1" r') w' := .turn hsecond
  have completes : w'.store.finished "u1" = [] ++ .str "01" :: [] := hdone
  obtain ⟨after, hentered, hhead⟩ := succeeded_iff accepted trimmed
    (sparesRecord_of_unruled hrules hquestions) talk turn .nothing (by simp [Event.IsTurn])
    completes (by simp [hnone]) forces (by simp)
  exact ⟨c, r, r', w, w', accepted, talk, turn, forces, hkind, after, hentered,
    hhead.2 (.inl (hkind ▸ nofun))⟩

/-- When the same section is completed by handing the conversation over, the next turn enters the
second section, not the one that is forced. -/
theorem not_succeeded_relay : ∃ (c : Catalog) (r r' r'' : TurnResult)
    (w w' w'' : World MemoryStore),
    c.Accepted ∧ c.HasTrimmedKeys ∧ (Flow.mk c none).SparesRecord ∧
    Conversation (Flow.mk c none) [.turn "u1" r] w ∧
    Step (Flow.mk c none) w (.turn "u1" r') w' ∧
    Continues (Flow.mk c none) w' [.turn "u1" r''] w'' ∧
    r'.kind = .handoff ∧ w.store.finished "u1" = [] ∧ w'.store.finished "u1" = [.str "01"] ∧
    Routing.Forces c (.str "01") (.str "03") ∧
    w''.store.entered "u1" = [.str "01", .str "02"] := by
  have evaluated : Outcome.Gives (Catalog.ofJson Catalog.relay "catalog.json") fun e =>
      (∀ s ∈ e.1.processes, s.1.isTrimmed = true) ∧ e.1.derivedRules.isEmpty = true ∧
      (e.1.questions.all fun q => !(q.2.fieldKey == Bookkeeping.completed)) = true ∧
      Routing.Forces e.1 (.str "01") (.str "03") ∧
      (Flow.mk e.1 none).Returns untouchedWorld "u1" .null fun _ w =>
        w.store.finished "u1" = [] ∧
        (Flow.mk e.1 none).Returns w "u1" (.str "yes") fun r' w' =>
          r'.kind = .handoff ∧ w'.store.finished "u1" = [.str "01"] ∧
          (Flow.mk e.1 none).Returns w' "u1" .null fun _ w'' =>
            w''.store.finished "u1" = [.str "01"] ∧
              (w''.store.standing? "u1").toList = [.str "02"] := by
    decide +kernel
  obtain ⟨⟨c, warnings⟩, hc, trimmed, hrules, hquestions, forces, r, w, hfirst, hnone, r', w',
    hsecond, hkind, hdone, r'', w'', hthird, hdone', hstanding⟩ := evaluated
  refine ⟨c, r, r', r'', w, w', w'', ⟨_, "catalog.json", warnings, hc⟩, trimmed,
    sparesRecord_of_unruled hrules hquestions, .step (.start untouchedWorld rfl) (.turn hfirst),
    .turn hsecond, .step .nothing (.turn hthird), hkind, hnone, hdone, forces, ?_⟩
  rw [MemoryStore.entered, hdone', hstanding]
  rfl

end Flow

end Questionnaire
