import Mathlib.Data.List.Perm.Subperm
import Questionnaire.Proofs.Turn.Progress

/-!
# How many sections a turn may enter

Routing goes on over sections with nothing to ask, and a bound from the order of routing stops it.
The bound does not count sections that only a forced successor leads to, so a long enough row of
them uses it up while routing could still go on.

## Main Definitions

* `Flow.RoutingPoint`, `Flow.routingPoint?` - where a turn starts to enter sections
* `Flow.Ending` - how entering sections ends when none of them is refused
* `Flow.Overruns` - more sections with nothing to ask stand in a row than may be entered
* `Routing.detours` - sections that are forced but do not stand in the order of routing

## Main Statements

* `Flow.ending_of_not_overruns` - without an overrun no section is refused
* `Flow.run_enter_eq_iff` - a higher bound changes nothing exactly when there is no overrun
* `Flow.not_overruns` - with at most one detour there is none
* `Flow.routed_within_bound_iff` - what this means for a turn
-/

namespace Questionnaire

/-- Sections that are forced after another one but do not stand in the order of routing. -/
def Routing.detours (c : Catalog) : List Json :=
  (Routing.forced c).filter fun key => !c.processOrder.contains key

namespace Flow

open Bookkeeping (flowScope)
open TurnM (lift)

/-! ## Completing a section of any store -/

/-- A section that is completed is read back with the others, whatever was stored before. -/
theorem completed_completing {m : MemoryStore} {user : String}
    (regular : (m.scopes user).Regular) {section_ : Json} (label : Routing.IsLabel section_)
    (r : CompletionRecord) :
    ((m.completing user section_ r).scopes user).Regular ∧
      (m.completing user section_ r).completed user =
        Routing.complete (m.completed user) section_ := by
  obtain ⟨labels, distinct⟩ := Routing.labels_of_completed ((m.scopes user).read flowScope)
  have hscopes : (m.completing user section_ r).scopes user = (m.scopes user).write flowScope
      [(Bookkeeping.completed, .arr (Routing.complete (m.completed user) section_))] := by
    rw [MemoryStore.completing, MemoryStore.scopes_appendCompletion,
      MemoryStore.scopes_patched_self]
  have hregular : ((m.completing user section_ r).scopes user).Regular := by
    rw [hscopes]
    refine regular.write fun e he => ?_
    rw [List.mem_singleton.1 he]
    rfl
  obtain ⟨labels', distinct'⟩ := Routing.labels_of_complete labels distinct label
  refine ⟨hregular, Routing.completed_of_recorded ?_ labels' distinct'⟩
  have name : Assoc.IsName Bookkeeping.completed := Json.isName_str _
  rw [hregular.valueAt?_read, hscopes, Scopes.own_write isKey_flowScope]
  show (Assoc.valueAt? Bookkeeping.completed (Assoc.put Bookkeeping.completed
    (.arr (Routing.complete (m.completed user) section_)) ((m.scopes user).own flowScope))).or _ = _
  rw [Assoc.valueAt?_put name, if_pos name.self, Option.some_or]

/-! ## Overruns -/

/-- After `n` sections with nothing to ask, one after the other, a further one follows. -/
def Overruns (f : Flow) (user : String) (channel : Json) :
    Nat → World MemoryStore → Option Json → Prop
  | _, _, none => False
  | 0, _, some _ => True
  | n + 1, w, some section_ =>
    f.entry w.store user channel 1 0 section_ = .ok .pass ∧
      Overruns f user channel n (passed w user section_)
        (f.following (passed w user section_).store user
          (Routing.complete (w.store.completed user) section_) section_)

variable {f : Flow} {user : String} {channel : Json} {lead : String} {note : TurnNote}
  {w : World MemoryStore}

/-- What a section has to offer does not depend on how many were entered before. -/
theorem entry_eq_ok_iff {m : MemoryStore} {left attempts : Nat} {section_ : Json} {e : Entry} :
    f.entry m user channel (left + 1) attempts section_ = .ok e ↔
      f.entry m user channel 1 0 section_ = .ok e := by
  unfold entry
  rw [Outcome.bind_eq_ok_iff, Outcome.bind_eq_ok_iff]
  simp only [admitted_eq_ok_iff]

/-- A section with nothing to ask is completed and leaves one fewer to enter. -/
theorem run_enter_passing {left attempts : Nat} {section_ : Json} {transitions : List FlowStatus}
    (hpass : f.entry w.store user channel 1 0 section_ = .ok .pass) :
    (f.enter user channel lead note (left + 1) attempts (some section_) transitions).run w =
      (f.enter user channel lead note left (attempts + 1)
        (f.following (passed w user section_).store user
          (Routing.complete (w.store.completed user) section_) section_)
        (transitions ++ [.sectionComplete, .routed])).run (passed w user section_) := by
  have hentry : f.entry w.store user channel (left + 1) attempts section_ = .ok .pass :=
    entry_eq_ok_iff.2 hpass
  obtain ⟨rest, hleft, hrun⟩ := f.run_enter_pass user channel lead note w transitions hentry
  cases hleft
  exact hrun

/-- An overrun is refused. -/
theorem refused_of_overruns {left attempts : Nat} {target : Option Json}
    {transitions : List FlowStatus} (h : f.Overruns user channel left w target) :
    ∃ section_ w', (f.enter user channel lead note left attempts target transitions).run w =
      (.error (.noEligibleTarget user section_ (attempts + left + 1)), w') := by
  induction left generalizing attempts target transitions w with
  | zero =>
    cases target with
    | none => cases h
    | some section_ =>
      have hentry : f.entry w.store user channel 0 attempts section_ =
          .error (.noEligibleTarget user section_ (attempts + 1)) := by
        rw [entry, admitted_zero]
        rfl
      obtain ⟨sessions, hrun⟩ := f.run_enter_error user channel lead note w transitions hentry
      exact ⟨section_, _, hrun⟩
  | succ left ih =>
    cases target with
    | none => cases h
    | some section_ =>
      obtain ⟨hpass, hrest⟩ := h
      obtain ⟨next, w', hnext⟩ := ih hrest
      have hcount : attempts + (left + 1) + 1 = attempts + 1 + left + 1 := by omega
      refine ⟨next, w', ?_⟩
      rw [run_enter_passing hpass, hnext, hcount]

/-- Without an overrun a higher bound changes nothing. -/
theorem run_enter_of_not_overruns {left attempts : Nat} {target : Option Json}
    {transitions : List FlowStatus} (h : ¬ f.Overruns user channel left w target) (more : Nat) :
    (f.enter user channel lead note (left + more) attempts target transitions).run w =
      (f.enter user channel lead note left attempts target transitions).run w := by
  induction left generalizing attempts target transitions w with
  | zero =>
    cases target with
    | none => rw [run_enter_none, run_enter_none]
    | some section_ => exact absurd trivial h
  | succ left ih =>
    cases target with
    | none => rw [run_enter_none, run_enter_none]
    | some section_ =>
      rw [Nat.add_right_comm]
      by_cases hpass : f.entry w.store user channel 1 0 section_ = .ok .pass
      · rw [run_enter_passing hpass, run_enter_passing hpass]
        exact ih fun hrest => h ⟨hpass, hrest⟩
      · -- the section asks or fails, and is the last one that is entered
        rw [run_enter_some, run_enter_some]
        cases hadmitted : f.admitted w.store user 1 attempts section_ with
        | error e => rfl
        | ok process =>
          dsimp only
          rw [TurnM.run_lift_bind, TurnM.run_lift_bind]
          cases hoffer : f.offer w.store user channel section_ process with
          | error e => rfl
          | ok e =>
            cases e with
            | ask s stageKey qid q => rfl
            | pass =>
              refine absurd (entry_eq_ok_iff.1 (?_ : f.entry w.store user channel (0 + 1) attempts
                section_ = .ok .pass)) hpass
              rw [entry, hadmitted]
              exact hoffer

theorem run_enter_zero (attempts : Nat) (section_ : Json) (transitions : List FlowStatus) :
    (f.enter user channel lead note 0 attempts (some section_) transitions).run w =
      (.error (.noEligibleTarget user section_ (attempts + 1)), w) := by
  rw [enter_some_eq, TurnM.run_get_bind, TurnM.run_lift_bind, admitted_zero]

/-- A section that is entered takes a session, whatever comes of it. -/
theorem sessions_lt_of_admitted (channel : Json) (lead : String) (note : TurnNote)
    (transitions : List FlowStatus) {attempts : Nat} {section_ : Json} {process : Section}
    (h : f.admitted w.store user 1 attempts section_ = .ok process) :
    w.sessions < ((f.enter user channel lead note 1 attempts (some section_)
      transitions).run w).2.sessions := by
  rcases hentry : f.entry w.store user channel 1 attempts section_ with
    e | ⟨s, stageKey, qid, q⟩ | _
  · rw [run_enter_some, h]
    dsimp only
    rw [TurnM.run_lift_bind]
    rw [entry, h] at hentry
    have hoffer : f.offer w.store user channel section_ process = .error e := hentry
    rw [hoffer]
    exact Nat.lt_succ_self _
  · rw [f.run_enter_ask user channel lead note w transitions hentry]
    exact Nat.lt_succ_self _
  · obtain ⟨rest, hleft, hrun⟩ := f.run_enter_pass user channel lead note w transitions hentry
    cases hleft
    rw [hrun]
    cases f.following (passed w user section_).store user
        (Routing.complete (w.store.completed user) section_) section_ with
    | none =>
      rw [run_enter_none]
      exact Nat.lt_trans (Nat.lt_succ_self _) (Nat.lt_succ_self _)
    | some next =>
      rw [run_enter_zero]
      exact Nat.lt_succ_self _

/-- The section that routing leads to is one of the catalog and not completed. -/
structure Eligible (c : Catalog) (m : MemoryStore) (user : String) (target : Option Json) :
    Prop where
  /-- It stands in the order of routing or is forced. -/
  listed : ∀ key, target = some key → key ∈ c.processOrder ∨ key ∈ Routing.forced c
  /-- It is one of the catalog. -/
  known : ∀ key, target = some key → (c.process? key).isSome = true
  /-- It is not completed. -/
  fresh : ∀ key, target = some key → key ∉ m.completed user

/-- How entering sections ends when routing refuses none of them. -/
inductive Ending (f : Flow) (user : String) (channel : Json) (lead : String) (note : TurnNote) :
    Except Fault TurnResult → Prop where
  /-- No section is left. -/
  | done (transitions : List FlowStatus) : Ending f user channel lead note
      (f.terminal transitions lead note)
  /-- What a section has to offer cannot be told. -/
  | unread {m : MemoryStore} {section_ : Json} {process : Section} {e : Fault}
      (h : f.offer m user channel section_ process = .error e) :
      Ending f user channel lead note (.error e)
  /-- A section has a question to ask. -/
  | asked {m : MemoryStore} {section_ : Json} {process : Section} {s : State}
      {stageKey qid : Json} {q : Except Fault NextQuestion} (transitions : List FlowStatus)
      (h : f.offer m user channel section_ process = .ok (.ask s stageKey qid q)) :
      Ending f user channel lead note
        (f.opening s section_ stageKey q channel transitions lead note)

section

variable (accepted : f.catalog.Accepted) (trimmed : f.catalog.HasTrimmedKeys)

include accepted trimmed

/-- An eligible section is admitted. -/
theorem exists_admitted {section_ : Json} (left attempts : Nat)
    (eligible : Eligible f.catalog w.store user (some section_)) :
    ∃ process, f.admitted w.store user (left + 1) attempts section_ = .ok process := by
  have known := eligible.known section_ rfl
  obtain ⟨process, hprocess⟩ := Option.isSome_iff_exists.1 known
  have label := Routing.isLabel_of_process? accepted trimmed known
  refine ⟨process, (f.admitted_eq_ok_iff user).2 ⟨hprocess, Bool.eq_false_iff.2 fun hdone => ?_⟩⟩
  exact eligible.fresh section_ rfl ((Routing.contains_iff_of_isLabel label).1 hdone)

/-- Behind a section with nothing to ask, routing leads to an eligible one again. -/
theorem eligible_following {m : MemoryStore} {section_ : Json} {r : CompletionRecord}
    (regular : (m.scopes user).Regular)
    (known : (f.catalog.process? section_).isSome = true) :
    Eligible f.catalog (m.completing user section_ r) user
      (f.following (m.completing user section_ r) user
        (Routing.complete (m.completed user) section_) section_) := by
  have label := Routing.isLabel_of_process? accepted trimmed known
  have hdone := (completed_completing regular label r).2
  refine ⟨fun key hkey => ?_, fun key hkey => ?_, fun key hkey hmem => ?_⟩
  · exact (Routing.nextAfter_eq_some accepted hkey).1
  · exact (Routing.nextAfter_eq_some accepted hkey).2.1
  · obtain ⟨-, hknown, hfree⟩ := Routing.nextAfter_eq_some accepted hkey
    rw [hdone] at hmem
    rw [(Routing.contains_iff_of_isLabel
      (Routing.isLabel_of_process? accepted trimmed hknown)).2 hmem] at hfree
    cases hfree

/-- A section with nothing to ask leaves regular scopes and an eligible section behind it. -/
theorem eligible_of_passed {section_ : Json} (regular : (w.store.scopes user).Regular)
    (eligible : Eligible f.catalog w.store user (some section_)) :
    ((passed w user section_).store.scopes user).Regular ∧
      (passed w user section_).store.completed user = w.store.completed user ++ [section_] ∧
      Eligible f.catalog (passed w user section_).store user
        (f.following (passed w user section_).store user
          (Routing.complete (w.store.completed user) section_) section_) := by
  have known := eligible.known section_ rfl
  have label := Routing.isLabel_of_process? accepted trimmed known
  obtain ⟨hregular, hdone⟩ := completed_completing regular label _
  rw [Routing.complete_of_not_mem label (eligible.fresh section_ rfl)] at hdone
  exact ⟨hregular, hdone, eligible_following accepted trimmed regular known⟩

/-- The sections of an overrun are distinct, and routing may lead to each of them. -/
theorem exists_sections_of_overruns {n : Nat} {target : Option Json}
    (regular : (w.store.scopes user).Regular)
    (eligible : Eligible f.catalog w.store user target)
    (h : f.Overruns user channel n w target) :
    ∃ keys : List Json, keys.length = n + 1 ∧ keys.Nodup ∧
      (∀ key ∈ keys, key ∈ f.catalog.processOrder ∨ key ∈ Routing.forced f.catalog) ∧
      ∀ key ∈ keys, key ∉ w.store.completed user := by
  induction n generalizing target w with
  | zero =>
    cases target with
    | none => cases h
    | some section_ =>
      refine ⟨[section_], rfl, by simp, ?_, ?_⟩
      · intro key hkey
        rw [List.mem_singleton.1 hkey]
        exact eligible.listed section_ rfl
      · intro key hkey
        rw [List.mem_singleton.1 hkey]
        exact eligible.fresh section_ rfl
  | succ n ih =>
    cases target with
    | none => cases h
    | some section_ =>
      obtain ⟨-, hrest⟩ := h
      obtain ⟨hregular, hdone, heligible⟩ := eligible_of_passed accepted trimmed regular eligible
      obtain ⟨keys, hlength, hdistinct, hlisted, hfresh⟩ := ih hregular heligible hrest
      rw [hdone] at hfresh
      refine ⟨section_ :: keys, by rw [List.length_cons, hlength], ?_, ?_, ?_⟩
      · exact List.nodup_cons.2 ⟨fun hmem => hfresh section_ hmem (by simp), hdistinct⟩
      · exact List.forall_mem_cons.2 ⟨eligible.listed section_ rfl, hlisted⟩
      · exact List.forall_mem_cons.2 ⟨eligible.fresh section_ rfl,
          fun key hkey hmem => hfresh key hkey (List.mem_append_left _ hmem)⟩

/-- With at most one detour no row of sections overruns the bound. -/
theorem not_overruns {target : Option Json} (regular : (w.store.scopes user).Regular)
    (eligible : Eligible f.catalog w.store user target)
    (single : ∀ key ∈ Routing.detours f.catalog, ∀ key' ∈ Routing.detours f.catalog, key = key') :
    ¬ f.Overruns user channel f.maxHops w target := by
  intro h
  obtain ⟨keys, hlength, hdistinct, hlisted, -⟩ :=
    exists_sections_of_overruns accepted trimmed regular eligible h
  -- one place besides the order of routing is enough for all of them
  obtain ⟨detour, hdetour⟩ : ∃ detour, ∀ key ∈ Routing.detours f.catalog, key = detour := by
    cases hdetours : Routing.detours f.catalog with
    | nil => exact ⟨.null, by simp⟩
    | cons key rest =>
      rw [hdetours] at single
      exact ⟨key, fun key' hkey' => single key' hkey' key List.mem_cons_self⟩
  have hsubset : keys ⊆ f.catalog.processOrder ++ [detour] := by
    intro key hkey
    rcases hlisted key hkey with hmem | hforced
    · exact List.mem_append_left _ hmem
    · by_cases hcontains : f.catalog.processOrder.contains key = true
      · exact List.mem_append_left _ ((Routing.contains_iff_of_isLabel
          (Routing.isLabel_of_mem_forced accepted trimmed hforced)).1 hcontains)
      · refine List.mem_append_right _ (List.mem_singleton.2 (hdetour key ?_))
        exact List.mem_filter.2 ⟨hforced, by simpa using hcontains⟩
  have hle := (hdistinct.subperm hsubset).length_le
  rw [hlength, List.length_append, maxHops, List.length_singleton] at hle
  omega

/-- Without an overrun, entering sections ends where no section is left or one does not pass. -/
theorem ending_of_not_overruns {left attempts : Nat} {target : Option Json}
    {transitions : List FlowStatus} (regular : (w.store.scopes user).Regular)
    (eligible : Eligible f.catalog w.store user target)
    (h : ¬ f.Overruns user channel left w target) :
    Ending f user channel lead note
      ((f.enter user channel lead note left attempts target transitions).run w).1 := by
  induction left generalizing attempts target transitions w with
  | zero =>
    cases target with
    | none =>
      rw [run_enter_none]
      exact .done _
    | some section_ => exact absurd trivial h
  | succ left ih =>
    cases target with
    | none =>
      rw [run_enter_none]
      exact .done _
    | some section_ =>
      by_cases hpass : f.entry w.store user channel 1 0 section_ = .ok .pass
      · obtain ⟨hregular, -, heligible⟩ := eligible_of_passed accepted trimmed regular eligible
        rw [run_enter_passing hpass]
        exact ih hregular heligible fun hrest => h ⟨hpass, hrest⟩
      · obtain ⟨process, hadmitted⟩ := exists_admitted accepted trimmed left attempts eligible
        have hentry : f.entry w.store user channel (left + 1) attempts section_ =
            f.offer w.store user channel section_ process := by
          rw [entry, hadmitted, Outcome.ok_bind]
        rcases hoffer : f.offer w.store user channel section_ process with
          e | ⟨s, stageKey, qid, q⟩ | _
        · obtain ⟨sessions, hrun⟩ :=
            f.run_enter_error user channel lead note w transitions (hentry.trans hoffer)
          rw [hrun]
          exact .unread hoffer
        · rw [f.run_enter_ask user channel lead note w transitions (hentry.trans hoffer)]
          exact .asked transitions hoffer
        · exact absurd (entry_eq_ok_iff.1 (hentry.trans hoffer)) hpass

/-- A higher bound changes something when there is an overrun. -/
theorem run_enter_ne_of_overruns {left attempts : Nat} {target : Option Json}
    {transitions : List FlowStatus} (regular : (w.store.scopes user).Regular)
    (eligible : Eligible f.catalog w.store user target)
    (h : f.Overruns user channel left w target) :
    (f.enter user channel lead note (left + 1) attempts target transitions).run w ≠
      (f.enter user channel lead note left attempts target transitions).run w := by
  induction left generalizing attempts target transitions w with
  | zero =>
    cases target with
    | none => cases h
    | some section_ =>
      -- with a higher bound the section is entered, and takes a session
      obtain ⟨process, hadmitted⟩ := exists_admitted accepted trimmed 0 attempts eligible
      intro heq
      have hlt := sessions_lt_of_admitted channel lead note transitions hadmitted
      rw [Nat.zero_add, run_enter_zero] at heq
      rw [heq] at hlt
      exact Nat.lt_irrefl _ hlt
  | succ left ih =>
    cases target with
    | none => cases h
    | some section_ =>
      obtain ⟨hpass, hrest⟩ := h
      obtain ⟨hregular, -, heligible⟩ := eligible_of_passed accepted trimmed regular eligible
      rw [run_enter_passing hpass, run_enter_passing hpass]
      exact ih hregular heligible hrest

/-- A higher bound changes nothing exactly when there is no overrun. -/
theorem run_enter_eq_iff {left attempts : Nat} {target : Option Json}
    {transitions : List FlowStatus} (regular : (w.store.scopes user).Regular)
    (eligible : Eligible f.catalog w.store user target) :
    (∀ more, (f.enter user channel lead note (left + more) attempts target transitions).run w =
      (f.enter user channel lead note left attempts target transitions).run w) ↔
    ¬ f.Overruns user channel left w target :=
  ⟨fun same h => run_enter_ne_of_overruns accepted trimmed regular eligible h (same 1),
    run_enter_of_not_overruns⟩

end

/-! ## Turns that enter sections -/

/-- Where a turn starts to enter sections. -/
structure RoutingPoint where
  /-- The world that is there by then. -/
  world : World MemoryStore
  /-- The section that routing leads to. -/
  target : Option Json
  /-- The text of the turn so far. -/
  lead : String
  /-- What the turn did. -/
  note : TurnNote
  /-- The states that the conversation went through. -/
  transitions : List FlowStatus

/-- Enter sections from there, at most a given number of them. -/
def RoutingPoint.run (pt : RoutingPoint) (f : Flow) (user : String) (channel : Json)
    (bound : Nat) : Except Fault TurnResult × World MemoryStore :=
  (f.enter user channel pt.lead pt.note bound 0 pt.target pt.transitions).run pt.world

/-- Where routing goes on from a section that is left with nothing missing. -/
def leavingPoint? (f : Flow) (user : String) (w : World MemoryStore) (p : Pointer) (s : State)
    (note : TurnNote) : Option RoutingPoint :=
  match f.departure p s, f.closing p s with
  | .ok none, .ok lead =>
    some ⟨departed w user p, f.following (departed w user p).store user
      (Routing.complete (w.store.completed user) p.sectionKey) p.sectionKey, lead.getD "", note,
      [.active, .sectionComplete, .routed]⟩
  | _, _ => none

/-- Where a turn starts to enter sections, if it does. -/
def routingPoint? (f : Flow) (user : String) (w : World MemoryStore) :
    Decision → Option RoutingPoint
  | .begin isLost =>
    some ⟨if isLost then { w with store := w.store.deletePointer user } else w,
      Routing.next f.catalog (w.store.completed user) ((w.store.scopes user).read flowScope), "",
      .nothing, [.routed]⟩
  | .depart p s => f.leavingPoint? user w p s .nothing
  | .accept p _ a =>
    if a.fired.isEmpty && a.next.isNone then
      f.leavingPoint? user { w with store := w.store.patched user p.sectionKey a.patch } p a.state
        a.note
    else none
  | _ => none

theorem run_leave_of_leavingPoint? {p : Pointer} {s : State} {pt : RoutingPoint}
    (h : f.leavingPoint? user w p s note = some pt) :
    (f.leave user p s [.active] channel note).run w = pt.run f user channel f.maxHops := by
  unfold leavingPoint? at h
  split at h
  · rename_i lead hdeparture hclosing
    cases h
    rw [run_leave, hdeparture]
    dsimp only
    rw [hclosing]
    rfl
  · cases h

theorem run_carryOut_of_routingPoint? {d : Decision} {answer : Json} {pt : RoutingPoint}
    (grounded : d.Grounded f w.store user answer channel)
    (h : f.routingPoint? user w d = some pt) :
    (f.carryOut user channel d).run w = pt.run f user channel f.maxHops := by
  cases d with
  | begin isLost =>
    cases h
    rw [run_begin, run_start]
    cases isLost <;> rfl
  | depart p s => exact run_leave_of_leavingPoint? h
  | accept p q a =>
    rw [routingPoint?] at h
    split at h
    · rename_i hlast
      obtain ⟨hfired, hnext⟩ := Bool.and_eq_true_iff.1 hlast
      rw [carryOut, carryAcceptance, TurnM.run_bind, TurnM.run_setFields w grounded.1.isKey]
      dsimp only
      rw [hfired, Option.isNone_iff_eq_none.1 hnext]
      exact run_leave_of_leavingPoint? h
    · cases h
  | _ => cases h

section

variable (accepted : f.catalog.Accepted) (trimmed : f.catalog.HasTrimmedKeys)

include accepted trimmed

theorem eligible_of_leavingPoint? {p : Pointer} {s : State} {pt : RoutingPoint}
    (regular : (w.store.scopes user).Regular)
    (known : (f.catalog.process? p.sectionKey).isSome = true)
    (h : f.leavingPoint? user w p s note = some pt) :
    (pt.world.store.scopes user).Regular ∧
      Eligible f.catalog pt.world.store user pt.target := by
  unfold leavingPoint? at h
  split at h
  · cases h
    exact ⟨(completed_completing regular
      (Routing.isLabel_of_process? accepted trimmed known) _).1,
      eligible_following accepted trimmed regular known⟩
  · cases h

/-- A turn starts to enter sections at an eligible one. -/
theorem eligible_of_routingPoint? (spares : f.SparesRecord) {d : Decision} {answer : Json}
    {pt : RoutingPoint} (regular : (w.store.scopes user).Regular)
    (grounded : d.Grounded f w.store user answer channel)
    (h : f.routingPoint? user w d = some pt) :
    (pt.world.store.scopes user).Regular ∧
      Eligible f.catalog pt.world.store user pt.target := by
  cases d with
  | begin isLost =>
    cases h
    have heligible : Eligible f.catalog w.store user (Routing.next f.catalog
        (w.store.completed user) ((w.store.scopes user).read flowScope)) := by
      refine ⟨fun key hkey => .inl (Routing.next_eq_some hkey).1,
        fun key hkey => (Routing.next_eq_some hkey).2.1, fun key hkey hmem => ?_⟩
      obtain ⟨-, hknown, hfree⟩ := Routing.next_eq_some hkey
      rw [(Routing.contains_iff_of_isLabel
        (Routing.isLabel_of_process? accepted trimmed hknown)).2 hmem] at hfree
      cases hfree
    cases isLost with
    | false => exact ⟨regular, heligible⟩
    | true => exact ⟨regular, heligible.listed, heligible.known, heligible.fresh⟩
  | depart p s => exact eligible_of_leavingPoint? accepted trimmed regular grounded.isKnown h
  | accept p q a =>
    rw [routingPoint?] at h
    split at h
    · refine eligible_of_leavingPoint? accepted trimmed ?_ grounded.1.isKnown h
      show ((w.store.patched user p.sectionKey a.patch).scopes user).Regular
      rw [MemoryStore.scopes_patched_self]
      exact regular.write fun e he => (spares.patch grounded e he).1
    · cases h
  | _ => cases h

end

/-- In a turn that enters sections the bound plays no role exactly when no row of sections with
nothing to ask overruns it, and then the turn ends where the row does.  When one does, the turn is
refused although routing could go on; with at most one section that is forced but stands outside
the order of routing, none does. -/
theorem routed_within_bound_iff {answer : Json} {d : Decision} {pt : RoutingPoint}
    (accepted : f.catalog.Accepted) (trimmed : f.catalog.HasTrimmedKeys) (spares : f.SparesRecord)
    (regular : (w.store.scopes user).Regular)
    (hdecide : f.decide w.store user answer channel = .ok d)
    (hpoint : f.routingPoint? user w d = some pt) :
    (f.processTurn user answer channel).run w = pt.run f user channel f.maxHops ∧
    ((∀ more, pt.run f user channel (f.maxHops + more) = pt.run f user channel f.maxHops) ↔
      ¬ f.Overruns user channel f.maxHops pt.world pt.target) ∧
    (¬ f.Overruns user channel f.maxHops pt.world pt.target →
      Ending f user channel pt.lead pt.note ((f.processTurn user answer channel).run w).1) ∧
    (f.Overruns user channel f.maxHops pt.world pt.target →
      ∃ section_, ((f.processTurn user answer channel).run w).1 =
        .error (.noEligibleTarget user section_ (f.maxHops + 1))) ∧
    ((∀ key ∈ Routing.detours f.catalog, ∀ key' ∈ Routing.detours f.catalog, key = key') →
      ¬ f.Overruns user channel f.maxHops pt.world pt.target) := by
  have grounded := grounded_of_decide hdecide
  obtain ⟨hregular, heligible⟩ :=
    eligible_of_routingPoint? accepted trimmed spares regular grounded hpoint
  have hrun : (f.processTurn user answer channel).run w = pt.run f user channel f.maxHops := by
    rw [run_processTurn, hdecide]
    exact run_carryOut_of_routingPoint? grounded hpoint
  refine ⟨hrun, run_enter_eq_iff accepted trimmed hregular heligible, fun hfree => ?_,
    fun hover => ?_, not_overruns accepted trimmed hregular heligible⟩
  · rw [hrun]
    exact ending_of_not_overruns accepted trimmed hregular heligible hfree
  · obtain ⟨section_, w', hrefused⟩ : ∃ section_ w', pt.run f user channel f.maxHops =
        (.error (.noEligibleTarget user section_ (0 + f.maxHops + 1)), w') :=
      refused_of_overruns hover
    exact ⟨section_, by rw [hrun, hrefused, Nat.zero_add]⟩

/-- A turn was refused a section. -/
def isRefused (user key : String) (attempts : Nat) : Except Fault TurnResult → Bool
  | .error (.noEligibleTarget user' section_ n) =>
    user' == user && section_ == .str key && n == attempts
  | _ => false

theorem eq_of_isRefused {user key : String} {attempts : Nat} {r : Except Fault TurnResult}
    (h : isRefused user key attempts r = true) :
    r = .error (.noEligibleTarget user (.str key) attempts) := by
  unfold isRefused at h
  split at h
  · simp only [Bool.and_eq_true, beq_iff_eq, Json.beq_str] at h
    obtain ⟨⟨rfl, rfl⟩, rfl⟩ := h
    rfl
  · cases h

/-- A catalog whose sections ask nothing and force one another, with only the first of them in the
order of routing. -/
def detour (sections : List Json) : Json :=
  .obj [
    ("stages", .arr [.obj [("stage_key", .str "s"), ("question_ids", .arr [])]]),
    ("processes", .arr sections),
    ("process_order", .arr [.str "01"])]

/-- With one section outside the order of routing, both are entered and the conversation ends. -/
theorem routed_within_bound_detour : ∃ (c : Catalog) (pt : RoutingPoint), c.Accepted ∧
    ((Flow.mk c none).processTurn "u1" .null .null).run untouchedWorld =
      pt.run (Flow.mk c none) "u1" .null ((Flow.mk c none).maxHops) ∧
    ((((Flow.mk c none).processTurn "u1" .null .null).run untouchedWorld).2.store.records
      "u1").length = 2 ∧
    ¬ (Flow.mk c none).Overruns "u1" .null ((Flow.mk c none).maxHops) pt.world pt.target := by
  have evaluated : Outcome.Gives (Catalog.ofJson (detour [
        .obj [("process_key", .str "01"), ("forced_next", .str "02")],
        .obj [("process_key", .str "02")]]) "catalog.json") fun e =>
      (∀ s ∈ e.1.processes, s.1.isTrimmed = true) ∧ e.1.derivedRules.isEmpty = true ∧
      (e.1.questions.all fun q => !(q.2.fieldKey == Bookkeeping.completed)) = true ∧
      (∀ key ∈ Routing.detours e.1, key = .str "02") ∧
      ((((Flow.mk e.1 none).processTurn "u1" .null .null).run untouchedWorld).2.store.records
        "u1").length = 2 := by
    decide +kernel
  obtain ⟨⟨c, warnings⟩, hc, trimmed, hrules, hquestions, hdetours, hrecords⟩ := evaluated
  have accepted : (Flow.mk c none).catalog.Accepted := ⟨_, "catalog.json", warnings, hc⟩
  have hdecide : (Flow.mk c none).decide untouchedWorld.store "u1" .null .null =
      .ok (.begin false) := rfl
  obtain ⟨hrun, -, -, -, hbound⟩ := routed_within_bound_iff accepted trimmed
    (sparesRecord_of_unruled hrules hquestions) (fun e he => by cases he) hdecide rfl
  exact ⟨c, _, accepted, hrun, hrecords,
    hbound fun key hkey key' hkey' => by rw [hdetours key hkey, hdetours key' hkey']⟩

/-- With two of them, the third section is refused. -/
theorem routing_refused_detour : ∃ c w', c.Accepted ∧ c.HasTrimmedKeys ∧
    (Flow.mk c none).SparesRecord ∧
    ((Flow.mk c none).processTurn "u1" .null .null).run untouchedWorld =
      (.error (.noEligibleTarget "u1" (.str "03") 3), w') := by
  have evaluated : Outcome.Gives (Catalog.ofJson (detour [
        .obj [("process_key", .str "01"), ("forced_next", .str "02")],
        .obj [("process_key", .str "02"), ("forced_next", .str "03")],
        .obj [("process_key", .str "03")]]) "catalog.json") fun e =>
      (∀ s ∈ e.1.processes, s.1.isTrimmed = true) ∧ e.1.derivedRules.isEmpty = true ∧
      (e.1.questions.all fun q => !(q.2.fieldKey == Bookkeeping.completed)) = true ∧
      isRefused "u1" "03" 3
        (((Flow.mk e.1 none).processTurn "u1" .null .null).run untouchedWorld).1 = true := by
    decide +kernel
  obtain ⟨⟨c, warnings⟩, hc, trimmed, hrules, hquestions, hrefused⟩ := evaluated
  exact ⟨c, _, ⟨_, "catalog.json", warnings, hc⟩, trimmed,
    sparesRecord_of_unruled hrules hquestions, Prod.ext (eq_of_isRefused hrefused) rfl⟩

end Flow

end Questionnaire
