import Questionnaire.Proofs.Turn.Conversation
import Questionnaire.Proofs.Turn.Stored

/-!
# Answers that are looked at

A turn looks at its answer when the pointer stands at a question and no other one is expected.  The
preparer may then set the answer aside; otherwise it is taken, and what was applied is checked.

## Main Definitions

* `Decision.site?` - where a turn looks at its answer, and the question that it answers
* `Decision.isAcceptance` - whether an answer is accepted
* `Flow.Hears` - what a turn has found before it looks at the answer
* `Flow.heed` - what it then makes of the answer
* `Flow.MayFollow` - what an answer leads to that was taken in some way

## Main Statements

* `Flow.hears_of_decide` - a decision about an answer was found in this way
* `Flow.taking_of_collect` - what goes into a draft was found in this way
* `Flow.site_unique` - where the pointer stands decides which question is answered
* `Flow.stores_of_unaccepted` - what the turn leaves when the answer is not accepted
-/

namespace Questionnaire

/-- The place where a turn looks at its answer, and the question that is answered. -/
def Decision.site? : Decision → Option (Pointer × Question)
  | .reask p q => some (p, q)
  | .reject p _ q _ => some (p, q)
  | .collect p q _ => some (p, q)
  | .accept p q _ => some (p, q)
  | _ => none

/-- An answer is accepted. -/
def Decision.isAcceptance : Decision → Bool
  | .accept .. => true
  | _ => false

/-- An answer goes into a draft, and what is kept has a property. -/
def Decision.Keeping (d : Decision) (P : Pointer → Question → Collection → Prop) : Prop :=
  ∃ p q c, d = .collect p q c ∧ P p q c

instance decidableKeeping (d : Decision) (P : Pointer → Question → Collection → Prop)
    [∀ p q c, Decidable (P p q c)] : Decidable (d.Keeping P) :=
  match d with
  | .collect p q c => decidable_of_iff (P p q c)
    ⟨fun h => ⟨p, q, c, rfl, h⟩, fun ⟨_, _, _, heq, h⟩ => by cases heq; exact h⟩
  | .closed | .begin _ | .redirect .. | .depart .. | .reask .. | .reject .. | .accept .. =>
    isFalse (by simp [Decision.Keeping])

namespace Flow

/-- What a turn has found before it looks at the answer. -/
structure Hears (f : Flow) (m : MemoryStore) (user : String) (p : Pointer) (q : Question)
    (answer : Json) (s : State) (text : String) : Prop where
  /-- The pointer stands in a section. -/
  stands : f.Stands m user p
  /-- It stands at the question. -/
  question : f.questionAt user p.position = .ok (some q)
  /-- The turn starts from the stored values. -/
  loaded : f.loadState ((m.scopes user).read p.sectionKey) = .ok s
  /-- The answer is a text. -/
  given : Answer.given answer = .ok text

/-- What a turn makes of an answer that it looks at. -/
def heed (f : Flow) (p : Pointer) (stored : Fields) (s : State) (q : Question) (text : String)
    (channel : Json) : Except Fault Decision :=
  let prepared := f.prepared q s text
  if prepared.reask then pure (.reask p q)
  else do
    match ← f.taking s q prepared.answer channel with
    | .collected c => pure (.collect p q c)
    | .rejected r => pure (.reject p stored q (.rejection r))
    | .applied s' applied =>
      match ← f.judge p q prepared.extra s' applied channel with
      | .inl failure => pure (.reject p stored q (.failure failure))
      | .inr a => pure (.accept p q a)

/-- A decision is one that an answer may lead to after it was taken in some way. -/
def MayFollow (f : Flow) (p : Pointer) (stored : Fields) (q : Question) (extra : Fields)
    (channel : Json) (d : Decision) : Taken → Prop
  | .collected c => d = .collect p q c
  | .rejected r => d = .reject p stored q (.rejection r)
  | .applied s applied =>
    (∃ failure, d = .reject p stored q (.failure failure)) ∨
      ∃ a, d = .accept p q a ∧ f.judge p q extra s applied channel = .ok (.inr a)

variable {f : Flow} {m : MemoryStore} {user text : String} {p : Pointer} {q : Question}
  {answer channel : Json} {d : Decision} {stored : Fields} {s : State}

theorem questionAt_of_site (grounded : d.Grounded f m user answer channel)
    (hsite : d.site? = some (p, q)) :
    f.Stands m user p ∧ f.questionAt user p.position = .ok (some q) := by
  cases d with
  | reask => cases hsite; exact grounded
  | reject => cases hsite; exact ⟨grounded.1, grounded.2.1⟩
  | collect => cases hsite; exact ⟨grounded.1, grounded.2.1⟩
  | accept => cases hsite; exact ⟨grounded.1, grounded.2.1⟩
  | _ => cases hsite

/-- A decision about an answer is what the turn has made of it. -/
theorem hears_of_decide (h : f.decide m user answer channel = .ok d)
    (hsite : d.site? = some (p, q)) :
    ∃ s text, f.Hears m user p q answer s text ∧
      f.heed p ((m.scopes user).read p.sectionKey) s q text channel = .ok d := by
  obtain ⟨stands, hquestion⟩ := questionAt_of_site (grounded_of_decide h) hsite
  rw [decide_of_stands stands, decideActive, MemoryStore.getFields_of_isKey stands.isKey,
    Outcome.ok_bind] at h
  obtain ⟨s, hs, h⟩ := Outcome.bind_eq_ok_iff.1 h
  rw [hquestion, Outcome.ok_bind] at h
  obtain ⟨expected, -, h⟩ := Outcome.bind_eq_ok_iff.1 h
  cases hfilter : expected.filter fun e => !e.qid.equal p.position with
  | some e =>
    rw [hfilter] at h
    cases h
    cases hsite
  | none =>
    rw [hfilter] at h
    obtain ⟨text, htext, h⟩ := Outcome.bind_eq_ok_iff.1 h
    exact ⟨s, text, ⟨stands, hquestion, hs, htext⟩, h⟩

/-- An answer that is set aside is not looked at further. -/
theorem heed_of_reask (hreask : (f.prepared q s text).reask = true) :
    f.heed p stored s q text channel = .ok (.reask p q) :=
  if_pos hreask

/-- What a turn makes of an answer is decided by what it is taken for. -/
theorem exists_taking_of_heed (hreask : (f.prepared q s text).reask = false)
    (h : f.heed p stored s q text channel = .ok d) :
    ∃ taken, f.taking s q (f.prepared q s text).answer channel = .ok taken ∧
      f.MayFollow p stored q (f.prepared q s text).extra channel d taken := by
  unfold heed at h
  dsimp only at h
  rw [hreask, if_neg Bool.false_ne_true] at h
  obtain ⟨taken, htaken, h⟩ := Outcome.bind_eq_ok_iff.1 h
  refine ⟨taken, htaken, ?_⟩
  cases taken with
  | collected c => cases h; rfl
  | rejected r => cases h; rfl
  | applied s' applied =>
    obtain ⟨verdict, hverdict, h⟩ := Outcome.bind_eq_ok_iff.1 h
    cases verdict with
    | inl failure => cases h; exact .inl ⟨failure, rfl⟩
    | inr a => cases h; exact .inr ⟨a, rfl, hverdict⟩

/-- What is kept in a draft was taken from the answer. -/
theorem taking_of_collect {c : Collection}
    (h : f.decide m user answer channel = .ok (.collect p q c)) :
    ∃ s text, f.Hears m user p q answer s text ∧ (f.prepared q s text).reask = false ∧
      f.taking s q (f.prepared q s text).answer channel = .ok (.collected c) := by
  obtain ⟨s, text, hears, hheed⟩ := hears_of_decide h rfl
  have hreask : (f.prepared q s text).reask = false := by
    refine Bool.eq_false_iff.2 fun hreask => ?_
    rw [heed_of_reask hreask] at hheed
    cases hheed
  obtain ⟨taken, htaken, hd⟩ := exists_taking_of_heed hreask hheed
  have hcollected : taken = .collected c := by
    cases taken with
    | collected => cases hd; rfl
    | rejected => cases hd
    | applied => obtain ⟨_, heq⟩ | ⟨_, heq, -⟩ := hd <;> cases heq
  exact ⟨s, text, hears, hreask, hcollected ▸ htaken⟩

/-- The pointer tells which question is answered. -/
theorem site_unique {m' : MemoryStore} {answer' channel' : Json} {d' : Decision}
    {site site' : Pointer × Question} (hpointer : m'.pointer? user = m.pointer? user)
    (hdecide : f.decide m user answer channel = .ok d) (hsite : d.site? = some site)
    (hdecide' : f.decide m' user answer' channel' = .ok d') (hsite' : d'.site? = some site') :
    site' = site := by
  obtain ⟨p, q⟩ := site
  obtain ⟨p', q'⟩ := site'
  obtain ⟨stands, hquestion⟩ := questionAt_of_site (grounded_of_decide hdecide) hsite
  obtain ⟨stands', hquestion'⟩ := questionAt_of_site (grounded_of_decide hdecide') hsite'
  have hp : p' = p := by
    have h := stands'.pointer
    rw [hpointer, stands.pointer] at h
    exact (Option.some.inj h).symm
  subst hp
  rw [hquestion] at hquestion'
  cases hquestion'
  rfl

/-- A turn that looks at its answer and does not accept it leaves its one write, and leaves the
pointer alone. -/
theorem stores_of_unaccepted {w w' : World MemoryStore} {r : Except Fault TurnResult}
    (hdecide : f.decide w.store user answer channel = .ok d) (hsite : d.site? = some (p, q))
    (hopen : d.isAcceptance = false)
    (hrun : (f.processTurn user answer channel).run w = (r, w')) :
    w'.store.scopes user = d.stores (w.store.scopes user) ∧
      w'.store.pointer? user = w.store.pointer? user := by
  have grounded := grounded_of_decide hdecide
  rw [run_processTurn, hdecide] at hrun
  dsimp only at hrun
  cases d with
  | reask p q =>
    rw [run_reask] at hrun
    cases hrun
    exact ⟨rfl, rfl⟩
  | reject p stored q error =>
    rw [run_reject grounded.1.isKey] at hrun
    cases hrun
    exact ⟨scopes_cleared _ _ _ _, pointer?_cleared _ _ _ _⟩
  | collect p q c =>
    rw [run_collect grounded.1.isKey] at hrun
    cases hrun
    exact ⟨MemoryStore.scopes_patched_self _ _ _ _, rfl⟩
  | accept => cases hopen
  | _ => cases hsite

end Flow

end Questionnaire
