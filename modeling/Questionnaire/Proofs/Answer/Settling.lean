import Questionnaire.Proofs.Answer.Readable
import Questionnaire.Proofs.Catalog.Values
import Questionnaire.Proofs.Message.Plain
import Questionnaire.Proofs.State.Selection

/-!
# Every answer is settled

An answer is accepted with a value or rejected with a message, and nothing else happens, unless a
number is asked for and its limits cannot be read.  Limits are read again for every answer, so then
every answer that holds a number fails.

## Main Definitions

* `Answer.Settles` - an answer is accepted or rejected

## Main Statements

* `Answer.exists_reject` - a rejection in standard wording
* `Answer.settles_iff` - the questions that settle all answers
* `Answer.answers_settled_iff` - the questions of a catalog that settle all answers
-/

namespace Questionnaire.Answer

variable {q : Question} {answer : String}

/-- An answer is accepted with a value, or rejected in standard wording on behalf of its
question. -/
def Settles (q : Question) (answer : String) : Prop :=
  (∃ v, read q answer [] = .ok (.ok v)) ∨
    ∃ r, read q answer [] = .ok (.error r) ∧ r.qid = q.qid

/-- In standard wording there is a rejection for every cause. -/
theorem exists_reject (q : Question) (cause : Cause) :
    ∃ r, reject q [] cause = .ok r ∧ r.qid = q.qid := by
  unfold reject
  dsimp only
  rw [Message.render_standard, Outcome.ok_bind]
  exact ⟨_, rfl, rfl⟩

/-- An answer is settled exactly if its text is blank or comes to a value or to a cause. -/
theorem settles_iff_readTyped : Settles q answer ↔
    Text.trim answer ≠ "" → ∃ outcome, readTyped q (Text.trim answer) = .ok outcome := by
  unfold Settles read
  dsimp only
  by_cases hblank : Text.trim answer = ""
  · rw [if_pos hblank]
    obtain ⟨r, hr, hqid⟩ := exists_reject q .empty
    refine iff_of_true (.inr ⟨r, ?_, hqid⟩) (absurd hblank)
    show (reject q [] .empty >>= fun r => _) = _
    rw [hr]
    rfl
  · rw [if_neg hblank]
    refine Iff.trans ?_ (forall_prop_of_true hblank).symm
    cases htyped : readTyped q (Text.trim answer) with
    | error e =>
      rw [Outcome.error_bind]
      refine iff_of_false ?_ ?_
      · rintro (⟨v, h⟩ | ⟨r, h, -⟩) <;> cases h
      · rintro ⟨outcome, h⟩
        cases h
    | ok outcome =>
      rw [Outcome.ok_bind]
      refine iff_of_true ?_ ⟨outcome, rfl⟩
      cases outcome with
      | ok v => exact .inl ⟨v, rfl⟩
      | error cause =>
        obtain ⟨r, hr, hqid⟩ := exists_reject q cause
        refine .inr ⟨r, ?_, hqid⟩
        dsimp only
        rw [hr]
        rfl

/-- A text comes to a number or to a cause if the limits can be read. -/
theorem exists_readNumber (wellFormed : q.constraints.WellFormed)
    (readable : Limits.IsReadable q.constraints) (s : String) :
    ∃ outcome, readNumber q s = .ok outcome := by
  unfold readNumber
  cases hv : readAmount? s with
  | none => exact ⟨_, rfl⟩
  | some v =>
    obtain ⟨l, hl⟩ := (Limits.exists_ofJson_iff _).2 readable
    have canonical := Limits.isCanonical_ofJson wellFormed hl
    obtain ⟨violation, hviolation⟩ :=
      Limits.exists_violation? canonical (isAmount_of_readAmount? hv)
    dsimp only
    rw [hl, Outcome.ok_bind, hviolation, Outcome.ok_bind]
    cases violation with
    | none => exact ⟨_, rfl⟩
    | some violation => exact ⟨_, rfl⟩

/-- If a number comes to anything, its limits can be read. -/
theorem isReadable_of_readNumber {s : String} {v : Json} {outcome : Except Cause Json}
    (hv : readAmount? s = some v) (h : readNumber q s = .ok outcome) :
    Limits.IsReadable q.constraints := by
  unfold readNumber at h
  rw [hv] at h
  obtain ⟨l, hl, -⟩ := Outcome.bind_eq_ok_iff.1 h
  exact (Limits.exists_ofJson_iff _).1 ⟨l, hl⟩

/-- A question settles all answers exactly if it asks for no number or its limits can be read. -/
theorem settles_iff (wellFormed : q.constraints.WellFormed) :
    (∀ answer, Settles q answer) ↔
      (q.dataType = .number → Limits.IsReadable q.constraints) := by
  constructor
  · intro settles number
    -- the limits are read for any number
    obtain ⟨outcome, h⟩ := settles_iff_readTyped.1 (settles "1") (by decide +kernel)
    rw [readTyped, number] at h
    have hamount : (readAmount? (Text.trim "1")).isSome = true := by decide +kernel
    obtain ⟨v, hv⟩ := Option.isSome_iff_exists.1 hamount
    exact isReadable_of_readNumber hv h
  · intro readable answer
    refine settles_iff_readTyped.2 fun _ => ?_
    unfold readTyped
    cases htype : q.dataType with
    | number => exact exists_readNumber wellFormed (readable htype) _
    | boolean =>
      dsimp only
      split <;> exact ⟨_, rfl⟩
    | enum =>
      dsimp only
      split <;> exact ⟨_, rfl⟩
    | array =>
      dsimp only
      split <;> exact ⟨_, rfl⟩
    | string => exact ⟨_, rfl⟩
    | date => exact ⟨_, rfl⟩

/-- A question of a catalog settles all answers exactly if it asks for no number or its limits can
be read.  From limits that are written as a text the parts that spell none are left out. -/
theorem answers_settled_iff {c : Catalog} (loaded : c.Loaded) (held : c.Holds q) :
    ((∀ answer, Settles q answer) ↔
      (q.dataType = .number → Limits.IsReadable q.constraints)) ∧
    ∀ s, Limits.ofJson (.str s) = Limits.readParts {}
      ((Text.splitTrimmed (· == ';') s).filter fun p => (Limits.part? p.toList).isSome) := by
  obtain ⟨e, he, rfl⟩ := held
  exact ⟨settles_iff (loaded.constraints e he), Limits.ofJson_str_eq⟩

/-- A catalog that asks for the number of rooms within limits that are written as a value. -/
def countsRooms (constraints : Json) : Json :=
  .obj [
    ("questions", .arr [.obj [("qid", .str "Q1"), ("field_key", .str "rooms"),
      ("data_type", .str "number"), ("constraints", constraints)]]),
    ("stages", .arr [.obj [("stage_key", .str "s"), ("question_ids", .arr [.str "Q1"])]])]

theorem wellFormed_countsRooms {constraints : Json} (h : constraints.WellFormed) :
    (countsRooms constraints).WellFormed := by
  simp [countsRooms, h]

/-- A remark among the limits does no harm. -/
theorem answers_settled_rooms : ∃ (c : Catalog) (q : Question) (warnings : List Catalog.Warning),
    Catalog.ofJson (countsRooms (.str "min=1; rarely more; max=10")) "catalog.json" =
      .ok (c, warnings) ∧ c.Holds q ∧ ∀ answer, Settles q answer := by
  have evaluated : Outcome.Gives
      (Catalog.ofJson (countsRooms (.str "min=1; rarely more; max=10")) "catalog.json") fun e =>
      ∃ q ∈ e.1.question? (.str "Q1"),
        Outcome.Gives (Limits.ofJson q.constraints) fun _ => True := by
    decide +kernel
  obtain ⟨⟨c, warnings⟩, hc, q, hq, l, hl, -⟩ := evaluated
  have loaded : c.Loaded := ⟨_, "catalog.json", warnings, wellFormed_countsRooms (.str _), hc⟩
  have held := Catalog.holds_of_question? hq
  have readable : Limits.IsReadable q.constraints := (Limits.exists_ofJson_iff _).1 ⟨l, hl⟩
  exact ⟨c, q, warnings, hc, held, (answers_settled_iff loaded held).1.2 fun _ => readable⟩

/-- With these limits the answer 5 for the number of rooms is neither accepted nor rejected. -/
def FailsOnRooms (constraints : Json) : Prop :=
  constraints.WellFormed ∧ ∃ (c : Catalog) (q : Question) (warnings : List Catalog.Warning),
    Catalog.ofJson (countsRooms constraints) "catalog.json" = .ok (c, warnings) ∧
      c.Holds q ∧ ¬ Settles q "5"

theorem FailsOnRooms.of_gives {constraints : Json} (wellFormed : constraints.WellFormed)
    (h : Outcome.Gives (Catalog.ofJson (countsRooms constraints) "catalog.json") fun e =>
      ∃ q ∈ e.1.question? (.str "Q1"), ¬ Outcome.Gives (read q "5" []) fun _ => True) :
    FailsOnRooms constraints := by
  obtain ⟨⟨c, warnings⟩, hc, q, hq, hfails⟩ := h
  refine ⟨wellFormed, c, q, warnings, hc, Catalog.holds_of_question? hq, ?_⟩
  rintro (⟨v, h⟩ | ⟨r, h, -⟩)
  · exact hfails ⟨_, h, trivial⟩
  · exact hfails ⟨_, h, trivial⟩

/-- A comma in place of a number, and a word in place of one, make every number fail. -/
theorem not_settled_rooms :
    FailsOnRooms (.str "min=,") ∧ FailsOnRooms (.obj [("min", .str "low")]) := by
  constructor
  · exact .of_gives (.str _) (by decide +kernel)
  · exact .of_gives (by simp) (by decide +kernel)

end Questionnaire.Answer
