import Questionnaire.Answer.Reading
import Questionnaire.Proofs.Json.WellFormed
import Questionnaire.Proofs.Outcome
import Questionnaire.Proofs.Text.Trimming

/-!
# The values of answers

## Main Statements

* `Answer.isValue_of_read` - an answer that can be read has a well-formed value
* `Answer.isAnswered_of_read` - and one that counts as given
-/

namespace Questionnaire

/-- A value that may be stored: it is well formed, and it is not the absent value. -/
structure Json.IsValue (v : Json) : Prop where
  /-- It is well formed. -/
  wellFormed : v.WellFormed
  /-- It is there. -/
  ne_null : v ≠ .null

theorem Numeral.isCanonical_of_scanSigned? {cs : List Char} {x : Binary64}
    (h : scanSigned? cs = some x) : x.IsCanonical := by
  unfold scanSigned? at h
  split at h <;>
    (obtain ⟨p, -, rfl⟩ := Option.map_eq_some_iff.1 h
     exact Binary64.isCanonical_ofDecimal _ _ _)

theorem Numeral.isCanonical_of_search? {cs : List Char} {x : Binary64}
    (h : search? cs = some x) : x.IsCanonical := by
  induction cs with
  | nil => cases h
  | cons c rest ih =>
    unfold search? at h
    split at h
    · rename_i y hy
      cases h
      exact isCanonical_of_scanSigned? hy
    · exact ih h

theorem Json.isAnswered_ofWhole (x : Binary64) : (Json.ofWhole x).isAnswered = true := by
  unfold ofWhole
  split <;> rfl

theorem Json.isValue_ofWhole {x : Binary64} (canonical : x.IsCanonical) :
    (Json.ofWhole x).IsValue := by
  unfold ofWhole
  split
  · exact ⟨.int _, by simp⟩
  · exact ⟨.float canonical, by simp⟩

namespace Answer

open Json (IsValue)

theorem isValue_of_readAmount? {answer : String} {v : Json} (h : readAmount? answer = some v) :
    v.IsValue := by
  obtain ⟨x, hx, rfl⟩ := Option.map_eq_some_iff.1 h
  exact Json.isValue_ofWhole (Numeral.isCanonical_of_search? hx)

/-- A number that is read is an amount within its limits. -/
theorem readAmount?_of_readNumber {q : Question} {s : String} {v : Json}
    (h : readNumber q s = .ok (.ok v)) : readAmount? s = some v := by
  unfold readNumber at h
  split at h
  · cases h
  · next hamount =>
    obtain ⟨limits, -, h⟩ := Outcome.bind_eq_ok_iff.1 h
    obtain ⟨violation?, -, h⟩ := Outcome.bind_eq_ok_iff.1 h
    cases violation? with
    | some violation => cases h
    | none =>
      cases h
      exact hamount

/-- An answer that is read is not blank, and its text is read. -/
theorem readTyped_of_read {q : Question} {answer : String} {overrides : Fields} {v : Json}
    (h : read q answer overrides = .ok (.ok v)) :
    Text.trim answer ≠ "" ∧ readTyped q (Text.trim answer) = .ok (.ok v) := by
  unfold read at h
  dsimp only at h
  split at h
  · rw [Outcome.pure_eq_ok, Outcome.ok_bind] at h
    obtain ⟨r, -, h⟩ := Outcome.bind_eq_ok_iff.1 h
    cases h
  · next hfilled =>
    obtain ⟨outcome, houtcome, h⟩ := Outcome.bind_eq_ok_iff.1 h
    cases outcome with
    | error cause =>
      obtain ⟨r, -, h⟩ := Outcome.bind_eq_ok_iff.1 h
      cases h
    | ok w =>
      cases h
      exact ⟨hfilled, houtcome⟩

theorem isValue_of_readTyped {q : Question} {s : String} {v : Json}
    (h : readTyped q s = .ok (.ok v)) : v.IsValue := by
  unfold readTyped at h
  split at h
  · split at h <;> cases h
    exact ⟨.bool _, by simp⟩
  · exact isValue_of_readAmount? (readAmount?_of_readNumber h)
  · split at h <;> cases h
    exact ⟨.str _, by simp⟩
  · split at h <;> cases h
    refine ⟨.arr fun w hw => ?_, by simp⟩
    obtain ⟨o, -, rfl⟩ := List.mem_map.1 hw
    exact .str o
  · cases h
    exact ⟨.str _, by simp⟩
  · cases h
    exact ⟨.str _, by simp⟩

/-- An answer that can be read has a well-formed value. -/
theorem isValue_of_read {q : Question} {answer : String} {overrides : Fields} {v : Json}
    (h : read q answer overrides = .ok (.ok v)) : v.IsValue :=
  isValue_of_readTyped (readTyped_of_read h).2

/-! ## Values that count as given -/

theorem mem_of_resolve? {s o : String} {options : List String}
    (h : resolve? s options = some o) : o ∈ options := by
  unfold resolve? at h
  split at h
  · next hsame =>
    cases h
    exact List.mem_of_find?_eq_some hsame
  · split at h
    · next hone =>
      cases h
      have hmem : o ∈ options.filter (overlaps s) := by rw [hone]; exact List.mem_singleton_self o
      exact (List.mem_filter.1 hmem).1
    · cases h

/-- What is chosen is an option. -/
theorem mem_of_choose? {answer o : String} {options : List String}
    (h : choose? answer options = some o) : o ∈ options := by
  unfold choose? at h
  dsimp only at h
  split at h
  · cases h
  · exact mem_of_resolve? h

/-- What was chosen is not given up for further parts. -/
theorem chooseEach?_ne_nil {options chosen parts os : List String} (hchosen : chosen ≠ [])
    (h : chooseEach? options chosen parts = some os) : os ≠ [] := by
  induction parts generalizing chosen with
  | nil =>
    cases h
    exact hchosen
  | cons p rest ih =>
    unfold chooseEach? at h
    split at h
    · cases h
    · refine ih ?_ h
      split
      · exact hchosen
      · simp

/-- Who chooses has chosen something. -/
theorem chooseMany?_ne_nil {answer : String} {options os : List String}
    (h : chooseMany? answer options = some os) : os ≠ [] := by
  unfold chooseMany? at h
  dsimp only at h
  split at h
  · cases h
  · split at h
    · cases h
      exact List.cons_ne_nil _ _
    · split at h
      · cases h
      · unfold chooseEach? at h
        split at h
        · cases h
        · exact chooseEach?_ne_nil (List.cons_ne_nil _ _) h

theorem isAnswered_of_readAmount? {answer : String} {v : Json} (h : readAmount? answer = some v) :
    v.isAnswered = true := by
  obtain ⟨x, -, rfl⟩ := Option.map_eq_some_iff.1 h
  exact Json.isAnswered_ofWhole x

theorem isAnswered_of_readTyped {q : Question} (options : ∀ o ∈ q.options, Text.trim o ≠ "")
    {s : String} (filled : Text.trim s ≠ "") {v : Json} (h : readTyped q s = .ok (.ok v)) :
    v.isAnswered = true := by
  unfold readTyped at h
  split at h
  · split at h <;> cases h
    rfl
  · exact isAnswered_of_readAmount? (readAmount?_of_readNumber h)
  · split at h <;> cases h
    next hchosen => exact bne_iff_ne.2 (options _ (mem_of_choose? hchosen))
  · split at h <;> cases h
    next hchosen => simpa [Json.isAnswered] using chooseMany?_ne_nil hchosen
  · cases h
    exact bne_iff_ne.2 filled
  · cases h
    exact bne_iff_ne.2 filled

/-- An answer that can be read has a value that counts as given. -/
theorem isAnswered_of_read {q : Question} (options : ∀ o ∈ q.options, Text.trim o ≠ "")
    {answer : String} {overrides : Fields} {v : Json} (h : read q answer overrides = .ok (.ok v)) :
    v.isAnswered = true := by
  obtain ⟨hfilled, htyped⟩ := readTyped_of_read h
  refine isAnswered_of_readTyped options ?_ htyped
  rwa [Text.trim_trim]

end Answer

end Questionnaire
