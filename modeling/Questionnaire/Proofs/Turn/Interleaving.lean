import Questionnaire.Proofs.Turn.Channels
import Questionnaire.Proofs.Turn.Result

/-!
# Conversations side by side

Several users talk to one flow, in any order.  Each of them hears what it would hear if it were
alone, and what is kept of it in the end is what would be kept then.

## Main Definitions

* `Visit` - a turn or a reset of a user, at some time
* `Flow.serve` - visits that are answered one after the other

## Main Statements

* `Flow.alike_receive` - a visit of the user is answered alike where the same is kept of it
* `Flow.alike_of_receive_other` - a visit of another user changes nothing of it
* `Flow.serve_filter` - each user's replies, and what is kept of it, are those of its own visits
-/

namespace Questionnaire

/-- What a user may do. -/
inductive Act where
  /-- To take a turn with an answer, on a channel. -/
  | turn (answer channel : Json)
  /-- To have its place in the conversation forgotten. -/
  | reset

/-- What a user does at some time. -/
structure Visit where
  /-- The user. -/
  user : String
  /-- The time. -/
  now : String
  /-- What it does. -/
  act : Act

namespace Flow

/-- What is done for an act, and the result that it gives; a reset gives none. -/
def perform {σ : Type} [Store σ] (f : Flow) (user : String) : Act → TurnM σ (Option TurnResult)
  | .turn answer channel => do
    let r ← f.processTurn user answer channel
    pure (some r)
  | .reset => do
    Flow.reset user
    pure none

/-- A visit is answered at its own time. -/
def receive {σ : Type} [Store σ] (f : Flow) (visit : Visit) (w : World σ) :
    Except Fault (Option TurnResult) × World σ :=
  (f.perform visit.user visit.act).run { w with now := visit.now }

/-- Visits that are answered one after the other: the replies, each with the user it goes to, and
the world after the last visit. -/
def serve {σ : Type} [Store σ] (f : Flow) :
    List Visit → World σ → List (String × Except Fault (Option TurnResult)) × World σ
  | [], w => ([], w)
  | visit :: rest, w =>
    let (reply, w) := f.receive visit w
    let (replies, w) := serve f rest w
    ((visit.user, reply) :: replies, w)

theorem serve_cons {σ : Type} [Store σ] (f : Flow) (visit : Visit) (rest : List Visit)
    (w : World σ) :
    f.serve (visit :: rest) w =
      ((visit.user, (f.receive visit w).1) :: (f.serve rest (f.receive visit w).2).1,
        (f.serve rest (f.receive visit w).2).2) := rfl

variable {f : Flow} {user : String} {w w' : World MemoryStore}

/-- What the user does is answered alike in worlds that keep the same of it. -/
theorem ties_perform (act : Act) :
    (Coupling.apart user).Ties Eq (f.perform user act) (f.perform user act) := by
  cases act with
  | turn answer channel =>
    -- on one channel nothing may be worded differently
    refine (ties_processTurn (fun hne => absurd rfl hne) answer).bind fun r r' hr => ?_
    exact Coupling.ties_pure (congrArg some (hr.eq fun hne => hne rfl))
  | reset => exact Coupling.ties_deletePointer.bind_eq fun _ => Coupling.ties_pure rfl

/-- A visit of the user is answered alike in worlds that keep the same of it, and they keep the same
of it afterwards. -/
theorem alike_receive {visit : Visit} (h : w.store.Alike visit.user w'.store) :
    (f.receive visit w).1 = (f.receive visit w').1 ∧
      (f.receive visit w).2.store.Alike visit.user (f.receive visit w').2.store := by
  obtain ⟨hagree, halike, -⟩ := ties_perform (f := f) visit.act
    { w with now := visit.now } { w' with now := visit.now } ⟨h, rfl⟩
  exact ⟨hagree.eq, halike⟩

/-- A visit of another user changes nothing that is kept of the user. -/
theorem alike_of_receive_other {visit : Visit} (hne : visit.user ≠ user) (w : World MemoryStore) :
    (f.receive visit w).2.store.Alike user w.store := by
  obtain ⟨other, now, act⟩ := visit
  refine .of_elsewhere ?_ hne.symm
  cases act with
  | turn answer channel =>
    rcases hrun : (f.processTurn other answer channel).run { w with now := now } with ⟨reply, w'⟩
    have helsewhere := elsewhere_of_processTurn hrun
    rw [receive, perform, TurnM.run_bind, hrun]
    cases reply with
    | ok r => exact helsewhere
    | error e => exact helsewhere
  | reset => exact .deletePointer w.store other

/-- The visits of others may be left out of one of two runs that start where the same is kept of a
user. -/
theorem serve_filter_of_alike (visits : List Visit) (h : w.store.Alike user w'.store) :
    (f.serve visits w).1.filter (fun reply => reply.1 = user) =
        (f.serve (visits.filter fun visit => visit.user = user) w').1 ∧
      (f.serve visits w).2.store.Alike user
        (f.serve (visits.filter fun visit => visit.user = user) w').2.store := by
  induction visits generalizing w w' with
  | nil => exact ⟨rfl, h⟩
  | cons visit rest ih =>
    rw [serve_cons, List.filter_cons, List.filter_cons]
    by_cases hvisit : visit.user = user
    · -- both runs answer the visit
      subst hvisit
      obtain ⟨hreply, halike⟩ := alike_receive (f := f) h
      obtain ⟨hreplies, hkept⟩ := ih halike
      simp only [decide_true, if_true, serve_cons]
      exact ⟨by rw [hreply, hreplies], hkept⟩
    · -- only the first run answers it, and its reply goes to somebody else
      simp only [hvisit, decide_false, Bool.false_eq_true, if_false]
      exact ih ((alike_of_receive_other hvisit w).trans h)

/-- However the visits of several users are interleaved, each user's replies are those to its own
visits alone, and so is what is kept of it, the identifiers of sessions aside. -/
theorem serve_filter (f : Flow) (visits : List Visit) (user : String) (w : World MemoryStore) :
    (f.serve visits w).1.filter (fun reply => reply.1 = user) =
        (f.serve (visits.filter fun visit => visit.user = user) w).1 ∧
      (f.serve visits w).2.store.Alike user
        (f.serve (visits.filter fun visit => visit.user = user) w).2.store :=
  serve_filter_of_alike visits (.refl user w.store)

end Flow

end Questionnaire
