import Questionnaire.Proofs.Answer.Reading

/-!
# Values that a question allows

An answer that is read is a value of the type of its question: a number within its limits, one of
its options or several distinct ones, or a text without blanks around it.

## Main Definitions

* `Limits.Admits` - a number respects limits
* `Question.Fits` - a value is one that the type of a question allows

## Main Statements

* `Limits.admits_of_violation?` - a number without a violation respects its limits
* `Answer.fits_of_read` - what is read fits its question
-/

namespace Questionnaire

/-- A number, and no truth value. -/
def Json.IsNumber (v : Json) : Prop := (∃ n, v = .int n) ∨ ∃ x, v = .float x

namespace Limits

/-- A value whose number respects limits: it violates no bound, and it is a whole number of steps
away from where they are measured from. -/
structure Admits (l : Limits) (v : Json) (x : Quantity) : Prop where
  /-- It is not below the least value. -/
  min : ∀ y ∈ l.min, x.lt y.quantity = false
  /-- It is not above the greatest value. -/
  max : ∀ y ∈ l.max, y.quantity.lt x = false
  /-- It is not below the other least value. -/
  gte : ∀ y ∈ l.gte, x.lt y.quantity = false
  /-- It is not above the other greatest value. -/
  lte : ∀ y ∈ l.lte, y.quantity.lt x = false
  /-- It is above the value that has to be exceeded. -/
  gt : ∀ y ∈ l.gt, x.le y.quantity = false
  /-- It is below the value that must not be reached. -/
  lt : ∀ y ∈ l.lt, y.quantity.le x = false
  /-- It lies on a step. -/
  step : ∀ y ∈ l.step, y.isZero = false →
    ∃ d, distance v l.stepBase = .ok d ∧ isMultiple d (.float y) = .ok true

variable {l : Limits} {v : Json} {x : Quantity}

/-- A value that breaks none of some bounds respects each of them. -/
theorem not_breaks_of_firstBroken? {bounds : List Bound} (h : l.firstBroken? v bounds = .ok none)
    (hx : v.quantity? = some x) :
    ∀ b ∈ bounds, ∀ y ∈ l.get? b, breaks b x y.quantity = false := by
  induction bounds with
  | nil => simp
  | cons b rest ih =>
    unfold firstBroken? at h
    rw [List.forall_mem_cons]
    cases hlimit : l.get? b with
    | none =>
      rw [hlimit] at h
      exact ⟨by simp, ih h⟩
    | some y =>
      rw [hlimit] at h
      dsimp only at h
      rw [hx] at h
      dsimp only at h
      split at h
      · cases h
      · rename_i hkept
        refine ⟨fun y' hy' => ?_, ih h⟩
        rw [← Option.some.inj hy']
        exact Bool.eq_false_iff.2 hkept

/-- A number without a violation respects its limits. -/
theorem admits_of_violation? (h : l.violation? v = .ok none) (hx : v.quantity? = some x) :
    l.Admits v x := by
  obtain ⟨broken, hbroken, h⟩ := Outcome.bind_eq_ok_iff.1 h
  cases broken with
  | some violation => cases h
  | none =>
    have hbounds := not_breaks_of_firstBroken? hbroken hx
    refine ⟨hbounds .min (by decide), hbounds .max (by decide), hbounds .gte (by decide),
      hbounds .lte (by decide), hbounds .gt (by decide), hbounds .lt (by decide),
      fun y hy hzero => ?_⟩
    rw [Option.mem_def.1 hy] at h
    dsimp only at h
    rw [hzero, if_neg Bool.false_ne_true] at h
    obtain ⟨d, hd, h⟩ := Outcome.bind_eq_ok_iff.1 h
    obtain ⟨onStep, hstep, h⟩ := Outcome.bind_eq_ok_iff.1 h
    cases onStep with
    | true => exact ⟨d, hd, hstep⟩
    | false => cases h

end Limits

/-- A value is one that the type of a question allows. -/
def Question.Fits (q : Question) (v : Json) : Prop :=
  match q.dataType with
  | .boolean => ∃ b, v = .bool b
  | .number => v.IsNumber ∧ ∃ limits x, Limits.ofJson q.constraints = .ok limits ∧
      v.quantity? = some x ∧ limits.Admits v x
  | .enum => ∃ o ∈ q.options, v = .str o
  | .array => ∃ os : List String, v = .arr (os.map Json.str) ∧ os ≠ [] ∧ os.Nodup ∧
      ∀ o ∈ os, o ∈ q.options
  | .string => ∃ s, v = .str s ∧ s ≠ "" ∧ Text.trim s = s
  | .date => ∃ s, v = .str s ∧ s ≠ "" ∧ Text.trim s = s

namespace Answer

/-- The options that the parts of an answer choose are distinct. -/
theorem distinct_of_chooseEach? {options chosen parts os : List String} (distinct : chosen.Nodup)
    (known : ∀ o ∈ chosen, o ∈ options) (h : chooseEach? options chosen parts = some os) :
    os.Nodup ∧ ∀ o ∈ os, o ∈ options := by
  induction parts generalizing chosen with
  | nil =>
    cases h
    exact ⟨distinct, known⟩
  | cons p rest ih =>
    unfold chooseEach? at h
    split at h
    · cases h
    · rename_i o ho
      by_cases hmem : o ∈ chosen
      · rw [if_pos (List.contains_iff_mem.2 hmem)] at h
        exact ih distinct known h
      · rw [if_neg (by rwa [List.contains_iff_mem])] at h
        refine ih (List.nodup_append.2 ⟨distinct, by simp, fun a ha b hb hab => hmem ?_⟩)
          (fun a ha => ?_) h
        · rw [← List.mem_singleton.1 hb, ← hab]
          exact ha
        · rcases List.mem_append.1 ha with ha | ha
          · exact known a ha
          · rw [List.mem_singleton.1 ha]
            exact mem_of_choose? ho

/-- The options that an answer chooses are distinct. -/
theorem distinct_of_chooseMany? {answer : String} {options os : List String}
    (h : chooseMany? answer options = some os) : os.Nodup ∧ ∀ o ∈ os, o ∈ options := by
  unfold chooseMany? at h
  dsimp only at h
  split at h
  · cases h
  · split at h
    · rename_i o ho
      cases h
      exact ⟨by simp, fun a ha => List.mem_singleton.1 ha ▸ List.mem_of_find?_eq_some ho⟩
    · split at h
      · cases h
      · exact distinct_of_chooseEach? List.nodup_nil (by simp) h

theorem isNumber_of_readAmount? {s : String} {v : Json} (h : readAmount? s = some v) :
    v.IsNumber := by
  obtain ⟨x, -, rfl⟩ := Option.map_eq_some_iff.1 h
  unfold Json.ofWhole
  split
  · exact .inl ⟨_, rfl⟩
  · exact .inr ⟨_, rfl⟩

/-- A number that is read respects its limits. -/
theorem admits_of_readNumber {q : Question} {s : String} {v : Json}
    (h : readNumber q s = .ok (.ok v)) :
    v.IsNumber ∧ ∃ limits x, Limits.ofJson q.constraints = .ok limits ∧
      v.quantity? = some x ∧ limits.Admits v x := by
  have hnumber := isNumber_of_readAmount? (readAmount?_of_readNumber h)
  refine ⟨hnumber, ?_⟩
  obtain ⟨x, hx⟩ : ∃ x, v.quantity? = some x := by
    obtain ⟨n, rfl⟩ | ⟨x, rfl⟩ := hnumber <;> exact ⟨_, rfl⟩
  unfold readNumber at h
  split at h
  · cases h
  · obtain ⟨limits, hlimits, h⟩ := Outcome.bind_eq_ok_iff.1 h
    obtain ⟨violation?, hviolation, h⟩ := Outcome.bind_eq_ok_iff.1 h
    cases violation? with
    | some violation => cases h
    | none =>
      cases h
      exact ⟨limits, x, hlimits, hx, Limits.admits_of_violation? hviolation hx⟩

theorem fits_of_readTyped {q : Question} {s : String} (filled : s ≠ "") (trimmed : Text.trim s = s)
    {v : Json} (h : readTyped q s = .ok (.ok v)) : q.Fits v := by
  unfold readTyped at h
  unfold Question.Fits
  cases htype : q.dataType <;> simp only [htype] at h ⊢
  case boolean =>
    split at h <;> cases h
    exact ⟨_, rfl⟩
  case number => exact admits_of_readNumber h
  case enum =>
    split at h <;> cases h
    next hchosen => exact ⟨_, mem_of_choose? hchosen, rfl⟩
  case array =>
    split at h <;> cases h
    next hchosen =>
      obtain ⟨distinct, known⟩ := distinct_of_chooseMany? hchosen
      exact ⟨_, rfl, chooseMany?_ne_nil hchosen, distinct, known⟩
  case string =>
    cases h
    exact ⟨s, rfl, filled, trimmed⟩
  case date =>
    cases h
    exact ⟨s, rfl, filled, trimmed⟩

/-- What is read fits its question. -/
theorem fits_of_read {q : Question} {answer : String} {overrides : Fields} {v : Json}
    (h : read q answer overrides = .ok (.ok v)) : q.Fits v := by
  obtain ⟨hfilled, htyped⟩ := readTyped_of_read h
  exact fits_of_readTyped hfilled (Text.trim_trim answer) htyped

end Answer

end Questionnaire
