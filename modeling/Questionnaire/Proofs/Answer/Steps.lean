import Questionnaire.Proofs.Answer.Multiples

/-!
# Steps of numbers

A step is judged on the notations of two numbers, the step and the distance of a number from where
steps are measured from.  But the distance is a floating point difference, and a step that is
written as an integer has become a floating point number, so the notations may differ from the exact
values.  Where they do not, as between whole numbers and in a measurement from zero, the judgement
is exact.

## Main Definitions

* `Limits.InSteps` - a distance is a multiple of a step, as the notations have it
* `Limits.JudgesExactly` - a distance and a step are judged as they are
* `Limits.Reads` - limits are read from values
* `Bound.written?`, `Limits.writtenBase` - the values in an object

## Main Statements

* `Limits.Reads.judgesExactly_iff` - when a step is judged exactly
* `Limits.judgesExactly_of_zero` - steps from zero
* `Limits.judgesExactly_of_whole` - steps between whole numbers
* `Limits.step_judged_exactly_iff` - when a step in an object is judged exactly
-/

namespace Questionnaire

open Binary64 (noted)

namespace Limits

variable {v d : Json}

/-! ## Judgements -/

/-- A distance is a counted multiple of a step, by the notations of both. -/
def InSteps (d : Json) (y : Binary64) : Prop :=
  ∃ r t, d.Denotes r ∧ (Json.float y).Denotes t ∧ Counted r t

variable {l : Limits} {base step : Json} {y : Binary64} {t V B S : ℚ}

/-- What is found out about a distance and a step. -/
theorem isMultiple_distance_cases
    (hd : (∃ r, d.Denotes r) ∨ ∃ negative, d = .float (.infinity negative))
    (hy : (Json.float y).Denotes t) (ht : t ≠ 0) :
    (isMultiple d (.float y) = .ok true ∧ d.longestInt ≤ maxDigits ∧ InSteps d y) ∨
      (isMultiple d (.float y) = .ok false ∧ d.longestInt ≤ maxDigits ∧ ¬InSteps d y) ∨
      ((∃ e, isMultiple d (.float y) = .error e) ∧ maxDigits < d.longestInt) := by
  by_cases hlong : maxDigits < d.longestInt
  · exact .inr (.inr ⟨⟨_, by rw [isMultiple, decimalText?, if_pos hlong]; rfl⟩, hlong⟩)
  have short := Nat.not_lt.1 hlong
  rcases hd with ⟨r, hr⟩ | ⟨negative, rfl⟩
  · rcases isMultiple_cases hr hy ht short (Nat.zero_le _) with ⟨h, hc⟩ | ⟨h, hc⟩
    · exact .inl ⟨h, short, r, t, hr, hy, hc⟩
    · refine .inr (.inl ⟨h, short, ?_⟩)
      rintro ⟨r', t', hr', hy', hc'⟩
      rw [hr'.unique hr, hy'.unique hy] at hc'
      exact hc hc'
  · refine .inr (.inl ⟨isMultiple_infinity negative y, short, ?_⟩)
    rintro ⟨r, -, hr, -⟩
    cases hr

/-- The step is judged when no bound is violated: the number is accepted if its distance is a
counted multiple of the step, and the step is reported if it is not. -/
theorem violation?_of_kept (hv : v.Denotes V) (hb : l.stepBase.Denotes B)
    (hstep : l.step = some y) (hy : (Json.float y).Denotes t) (ht : t ≠ 0)
    (hzero : y.isZero = false) (kept : l.firstBroken? v checkOrder = .ok none) :
    (l.violation? v = .ok none ↔
      ∃ d, distance v l.stepBase = .ok d ∧ d.longestInt ≤ maxDigits ∧ InSteps d y) ∧
    ((∃ y', l.violation? v = .ok (some (.offStep y'))) ↔
      ∃ d, distance v l.stepBase = .ok d ∧ d.longestInt ≤ maxDigits ∧ ¬InSteps d y) := by
  have hviolation : l.violation? v = (do
      let d ← distance v l.stepBase
      if ← isMultiple d (.float y) then pure none else pure (some (.offStep y))) := by
    unfold violation?
    rw [kept, Outcome.ok_bind]
    dsimp only
    rw [hstep]
    dsimp only
    rw [hzero, if_neg Bool.false_ne_true]
  rw [hviolation]
  cases hd : distance v l.stepBase with
  | error e => exact ⟨iff_of_false nofun nofun, iff_of_false nofun nofun⟩
  | ok d =>
    rcases isMultiple_distance_cases (distance_cases hv hb hd) hy ht with
      ⟨h, short, hin⟩ | ⟨h, short, hout⟩ | ⟨⟨e, h⟩, long⟩
    · rw [Outcome.ok_bind, h]
      refine ⟨iff_of_true rfl ⟨d, rfl, short, hin⟩, iff_of_false nofun ?_⟩
      rintro ⟨d', hd', -, hout⟩
      cases hd'
      exact hout hin
    · rw [Outcome.ok_bind, h]
      refine ⟨iff_of_false nofun ?_, iff_of_true ⟨y, rfl⟩ ⟨d, rfl, short, hout⟩⟩
      rintro ⟨d', hd', -, hin⟩
      cases hd'
      exact hout hin
    · rw [Outcome.ok_bind, h]
      constructor <;> refine iff_of_false nofun ?_ <;>
      · rintro ⟨d', hd', short, -⟩
        cases hd'
        exact Nat.not_lt.2 short long

/-- The judgement of a distance and a step: nothing is violated if the one is a multiple of the
other, and otherwise the step is. -/
structure JudgesExactly (l : Limits) (v : Json) (x s : ℚ) : Prop where
  /-- A number on a step is accepted. -/
  accepts : OnStep x s → l.violation? v = .ok none
  /-- Any other number is reported. -/
  reports : ¬OnStep x s → ∃ y, l.violation? v = .ok (some (.offStep y))

/-- Limits have a step, and it and the value that steps are measured from are the floating point
numbers of values that denote `S` and `B`. -/
structure Reads (l : Limits) (base step : Json) (B S : ℚ) (y : Binary64) : Prop where
  /-- What the value that steps are measured from is read from. -/
  base_denotes : base.Denotes B
  /-- What the step is read from. -/
  step_denotes : step.Denotes S
  /-- The step is not zero. -/
  ne_zero : S ≠ 0
  /-- Zero is left as it is when no value is given, and a value that is given is read. -/
  measured : l.stepBase = base ∨ ∃ x, l.stepBase = .float x ∧ base.asFloat = .ok x
  /-- There is a step. -/
  given : l.step = some y
  /-- It is read. -/
  read : step.asFloat = .ok y

/-- A step is judged exactly if the notations of the distance and of the step stand to each other as
the exact values do. -/
theorem Reads.judgesExactly_iff (reads : l.Reads base step B S y) (hv : v.Denotes V)
    (kept : l.firstBroken? v checkOrder = .ok none) :
    l.JudgesExactly v (V - B) S ↔
      ∃ d, distance v l.stepBase = .ok d ∧ d.longestInt ≤ maxDigits ∧
        (InSteps d y ↔ OnStep (V - B) S) := by
  obtain ⟨-, t, ht, hpositive⟩ := reads.step_denotes.asFloat reads.read
  obtain ⟨hne, hzero⟩ := hpositive reads.ne_zero
  obtain ⟨b, hb⟩ : ∃ b, l.stepBase.Denotes b := by
    rcases reads.measured with h | ⟨x, h, hx⟩
    · exact ⟨B, h ▸ reads.base_denotes⟩
    · obtain ⟨-, b, hb, -⟩ := reads.base_denotes.asFloat hx
      exact ⟨b, h ▸ hb⟩
  obtain ⟨haccepts, hreports⟩ := violation?_of_kept hv hb reads.given ht hne hzero kept
  by_cases onStep : OnStep (V - B) S
  · have hjudges : l.JudgesExactly v (V - B) S ↔ l.violation? v = .ok none :=
      ⟨fun h => h.accepts onStep, fun h => ⟨fun _ => h, absurd onStep⟩⟩
    simp only [hjudges, haccepts, iff_true_right onStep]
  · have hjudges : l.JudgesExactly v (V - B) S ↔
        ∃ y', l.violation? v = .ok (some (.offStep y')) :=
      ⟨fun h => h.reports onStep, fun h => ⟨fun h' => absurd h' onStep, fun _ => h⟩⟩
    simp only [hjudges, hreports, iff_false_right onStep]

/-- A step is judged exactly when nothing is rounded and there are not too many steps. -/
theorem Reads.judgesExactly_of_exact (reads : l.Reads base step B S y) (hv : v.Denotes V)
    (kept : l.firstBroken? v checkOrder = .ok none) (hy : (Json.float y).Denotes S)
    (hd : distance v l.stepBase = .ok d) (exact : d.Denotes (V - B))
    (short : d.longestInt ≤ maxDigits)
    (few : ∀ k : Int, V - B = k * S → k.natAbs < 10 ^ Remainder.precision) :
    l.JudgesExactly v (V - B) S := by
  refine (reads.judgesExactly_iff hv kept).2 ⟨d, hd, short, ?_⟩
  constructor
  · rintro ⟨r, t, hr, ht, hcounted⟩
    rw [hr.unique exact, ht.unique hy] at hcounted
    exact hcounted.onStep
  · rintro ⟨k, hk⟩
    exact ⟨_, _, exact, hy, k, few k hk, hk⟩

/-- Measured from zero, up to `10 ^ 28` steps are judged exactly. -/
theorem judgesExactly_of_zero (hv : v.Denotes V) (short : v.longestInt ≤ maxDigits)
    (measured : l.stepBase = .int 0) (given : l.step = some y) (hy : (Json.float y).Denotes S)
    (hS : S ≠ 0) (kept : l.firstBroken? v checkOrder = .ok none)
    (few : ∀ k : Int, V = k * S → k.natAbs < 10 ^ Remainder.precision) :
    l.JudgesExactly v V S := by
  have reads : l.Reads (.int 0) (.float y) ((0 : Int) : ℚ) S y :=
    ⟨.int 0, hy, hS, .inl measured, given, rfl⟩
  obtain ⟨d, hd, exact, hlength⟩ := distance_zero hv
  have hzero : V - ((0 : Int) : ℚ) = V := by rw [Int.cast_zero, sub_zero]
  rw [← hzero] at exact few ⊢
  exact reads.judgesExactly_of_exact hv kept hy (measured ▸ hd) exact (hlength ▸ short) few

/-- Whole numbers of at most 52 bits are judged exactly, from a whole number on in whole steps. -/
theorem judgesExactly_of_whole {a b s : Int} (ha : a.natAbs < 2 ^ 52) (hb : b.natAbs < 2 ^ 52)
    (hs : s.natAbs < 2 ^ 53) (reads : l.Reads (.int b) (.int s) b s y)
    (kept : l.firstBroken? (.int a) checkOrder = .ok none) :
    l.JudgesExactly (.int a) ((a : ℚ) - b) s := by
  have hdifference : (a - b).natAbs < 2 ^ 53 := by omega
  have hwidth : y = .ofInt s := by
    have h := reads.read
    rw [Json.asFloat_whole hs.le] at h
    exact (Except.ok.inj h).symm
  obtain ⟨d, hd, exact, short⟩ : ∃ d, distance (.int a) l.stepBase = .ok d ∧
      d.Denotes ((a - b : Int) : ℚ) ∧ d.longestInt ≤ maxDigits := by
    rcases reads.measured with h | ⟨x, h, hx⟩
    · exact ⟨_, by rw [h]; rfl, .int (a - b), Json.longestInt_whole hdifference⟩
    · rw [Json.asFloat_whole (by omega)] at hx
      have hd : distance (.int a) (.float (.ofInt b)) =
          .ok (.float ((Binary64.ofInt a).sub (.ofInt b))) := by
        show ((Json.int a).asFloat >>= _) = _
        rw [Json.asFloat_whole (by omega)]
        rfl
      refine ⟨_, by rw [h, ← Except.ok.inj hx]; exact hd, ?_, Nat.zero_le _⟩
      rcases Binary64.sub_ofInt (a := a) (b := b) (by omega) (by omega) with ⟨heq, t, ht⟩ | ⟨-, ht⟩
      · rw [ht, heq, Int.sub_self]
        exact Json.denotes_zero t
      · rw [ht]
        exact Json.denotes_ofInt hdifference
  rw [Int.cast_sub] at exact
  have hy : (Json.float y).Denotes s := hwidth ▸ Json.denotes_ofInt hs
  refine reads.judgesExactly_of_exact (.int a) kept hy hd exact short ?_
  -- there are no more steps than the distance is long
  intro k hk
  have hk : a - b = k * s := by exact_mod_cast hk
  have hs0 : s ≠ 0 := by exact_mod_cast reads.ne_zero
  have hmul : (a - b).natAbs = k.natAbs * s.natAbs := by rw [hk, Int.natAbs_mul]
  have hle : k.natAbs ≤ (a - b).natAbs := hmul ▸ Nat.le_mul_of_pos_right _ (Int.natAbs_pos.2 hs0)
  exact hle.trans_lt (hdifference.trans (by decide))

end Limits

/-! ## Limits that are written as an object -/

/-- The value that an object gives for a part of the limits. -/
def Bound.written? (b : Bound) (ms : Object) : Option Json :=
  match Assoc.valueAt? b.name ms with
  | some .null => none
  | found => found

namespace Limits

/-- A part of the limits is what was written for it, as a floating point number. -/
def Holds (l : Limits) (b : Bound) : Option Json → Prop
  | none => l.get? b = none
  | some w => ∃ x, w.asFloat = .ok x ∧ l.get? b = some x

variable {l l' : Limits} {ms : Object} {b : Bound} {bounds : List Bound}

theorem readMembers_cons_eq_ok_iff :
    readMembers ms l (b :: bounds) = .ok l' ↔
      (b.written? ms = none ∧ readMembers ms l bounds = .ok l') ∨
        ∃ w x, b.written? ms = some w ∧ w.asFloat = .ok x ∧
          readMembers ms (l.put b x) bounds = .ok l' := by
  rw [readMembers, Bound.written?]
  cases Assoc.valueAt? b.name ms with
  | none => simp
  | some w =>
    cases w with
    | null => simp
    | _ => simp [Outcome.bind_eq_ok_iff]

/-- Each part that is looked for holds what is written, and the others stay. -/
theorem holds_of_readMembers (h : readMembers ms l bounds = .ok l') (distinct : bounds.Nodup)
    (b : Bound) :
    (b ∉ bounds → l'.get? b = l.get? b) ∧
      (b ∈ bounds → l.get? b = none → l'.Holds b (b.written? ms)) := by
  induction bounds generalizing l with
  | nil =>
    cases h
    exact ⟨fun _ => rfl, nofun⟩
  | cons a rest ih =>
    obtain ⟨hnotMem, distinct⟩ := List.nodup_cons.1 distinct
    rcases readMembers_cons_eq_ok_iff.1 h with ⟨habsent, h⟩ | ⟨w, x, hw, hx, h⟩
    · obtain ⟨hkept, hread⟩ := ih h distinct
      refine ⟨fun hb => hkept fun hmem => hb (List.mem_cons_of_mem a hmem), fun hb hnone => ?_⟩
      rcases List.mem_cons.1 hb with rfl | hb
      · rw [habsent]
        exact (hkept hnotMem).trans hnone
      · exact hread hb hnone
    · obtain ⟨hkept, hread⟩ := ih h distinct
      constructor
      · intro hb
        have hne : a ≠ b := fun heq => hb (heq ▸ List.mem_cons_self)
        rw [hkept fun hmem => hb (List.mem_cons_of_mem a hmem), get?_put_of_ne l x hne]
      · intro hb hnone
        rcases List.mem_cons.1 hb with rfl | hb
        · rw [hw]
          exact ⟨x, hx, (hkept hnotMem).trans (get?_put_self l b x)⟩
        · have hne : a ≠ b := fun heq => hnotMem (heq ▸ hb)
          exact hread hb ((get?_put_of_ne l x hne).trans hnone)

/-- Limits that are written as an object hold what is written. -/
theorem holds_of_ofJson (h : ofJson (.obj ms) = .ok l) (b : Bound) : l.Holds b (b.written? ms) := by
  cases ms with
  | nil =>
    cases h
    exact get?_empty b
  | cons m ms => exact (holds_of_readMembers h (by decide) b).2 b.mem_all (get?_empty b)

/-- The value that steps are measured from, as it is written. -/
def writtenBase (ms : Object) : Json :=
  ((Bound.min.written? ms).or (Bound.gte.written? ms)).getD (.int 0)

/-- The value that steps are measured from is the one that is written. -/
theorem stepBase_of_ofJson (h : ofJson (.obj ms) = .ok l) :
    l.stepBase = writtenBase ms ∨
      ∃ x, l.stepBase = .float x ∧ (writtenBase ms).asFloat = .ok x := by
  have hmin := holds_of_ofJson h .min
  have hgte := holds_of_ofJson h .gte
  unfold stepBase writtenBase
  cases hm : Bound.min.written? ms with
  | some w =>
    rw [hm] at hmin
    obtain ⟨x, hx, hl⟩ := hmin
    have hl : l.min = some x := hl
    rw [hl]
    exact .inr ⟨x, rfl, hx⟩
  | none =>
    rw [hm] at hmin
    have hl : l.min = none := hmin
    rw [hl]
    cases hg : Bound.gte.written? ms with
    | some w =>
      rw [hg] at hgte
      obtain ⟨x, hx, hl'⟩ := hgte
      have hl' : l.gte = some x := hl'
      rw [hl']
      exact .inr ⟨x, rfl, hx⟩
    | none =>
      rw [hg] at hgte
      have hl' : l.gte = none := hgte
      rw [hl']
      exact .inl rfl

/-- The limits that are written in an object are read from it. -/
theorem reads_of_ofJson {step : Json} {B S : ℚ} (h : ofJson (.obj ms) = .ok l)
    (hbase : (writtenBase ms).Denotes B) (hstep : Bound.step.written? ms = some step)
    (hwidth : step.Denotes S) (hS : S ≠ 0) : ∃ y, l.Reads (writtenBase ms) step B S y := by
  have hholds := holds_of_ofJson h .step
  rw [hstep] at hholds
  obtain ⟨y, hy, hl⟩ := hholds
  exact ⟨y, hbase, hwidth, hS, stepBase_of_ofJson h, hl, hy⟩

/-- A step that is written in an object is judged exactly if the limits can be read, the distance
can be computed and written, and its notation stands to that of the step as the exact values do.
Whether an integer divides another is found out exactly if both can be written and the quotient has
28 digits at most. -/
theorem step_judged_exactly_iff {v step : Json} {V B S : ℚ} (hv : v.Denotes V)
    (hbase : (writtenBase ms).Denotes B) (hstep : Bound.step.written? ms = some step)
    (hwidth : step.Denotes S) (hS : S ≠ 0)
    (kept : ∀ l, ofJson (.obj ms) = .ok l → l.firstBroken? v checkOrder = .ok none) :
    ((∃ l, ofJson (.obj ms) = .ok l ∧ l.JudgesExactly v (V - B) S) ↔
      ∃ l d y, ofJson (.obj ms) = .ok l ∧ distance v l.stepBase = .ok d ∧
        d.longestInt ≤ maxDigits ∧ step.asFloat = .ok y ∧ (InSteps d y ↔ OnStep (V - B) S)) ∧
    ∀ a b : Int, b ≠ 0 → (isMultiple (.int a) (.int b) = .ok (decide (b ∣ a)) ↔
      a.natAbs.repr.length ≤ maxDigits ∧ b.natAbs.repr.length ≤ maxDigits ∧
        (b ∣ a → (a / b).natAbs < 10 ^ Remainder.precision)) := by
  refine ⟨?_, fun a _ hb => isMultiple_int_iff a hb⟩
  constructor
  · rintro ⟨l, h, hjudges⟩
    obtain ⟨y, reads⟩ := reads_of_ofJson h hbase hstep hwidth hS
    obtain ⟨d, hd, short, hsame⟩ := (reads.judgesExactly_iff hv (kept l h)).1 hjudges
    exact ⟨l, d, y, h, hd, short, reads.read, hsame⟩
  · rintro ⟨l, d, y, h, hd, short, hy, hsame⟩
    obtain ⟨y', reads⟩ := reads_of_ofJson h hbase hstep hwidth hS
    cases Except.ok.inj (hy.symm.trans reads.read)
    exact ⟨l, h, (reads.judgesExactly_iff hv (kept l h)).2 ⟨d, hd, short, hsame⟩⟩

/-- From two on in steps of three. -/
def threes : Object := [("min", .int 2), ("step", .int 3)]

/-- Eight is two steps of three away from two. -/
theorem step_judged_exactly_iff_threes :
    (∀ l, ofJson (.obj threes) = .ok l → l.firstBroken? (.int 8) checkOrder = .ok none) ∧
      (∃ l, ofJson (.obj threes) = .ok l ∧
        l.JudgesExactly (.int 8) ((8 : Int) - (2 : Int)) (3 : Int)) ∧
      isMultiple (.int 8) (.int 2) = .ok (decide ((2 : Int) ∣ 8)) := by
  have hread : ofJson (.obj threes) = .ok { min := some (.ofInt 2), step := some (.ofInt 3) } := rfl
  have kept : ∀ l, ofJson (.obj threes) = .ok l →
      l.firstBroken? (.int 8) checkOrder = .ok none := by
    intro l h
    rw [hread] at h
    cases h
    have hmin : breaks .min (.ofInt 8) (Binary64.ofInt 2).quantity = false := by decide +kernel
    simp [firstBroken?, checkOrder, get?, Json.quantity?, hmin]
  have hdistance : distance (.int 8) (.float (.ofInt 2)) =
      .ok (.float ((Binary64.ofInt 8).sub (.ofInt 2))) := rfl
  have hin : InSteps (.float ((Binary64.ofInt 8).sub (.ofInt 2))) (.ofInt 3) := by
    have hsix : (Json.float ((Binary64.ofInt 8).sub (.ofInt 2))).Denotes (Decimal.value ⟨6, 0⟩) :=
      .of_noted (m := 6755399441055744) (e := -50) (by decide +kernel) (by decide)
        (by decide +kernel)
    have hthree : (Json.float (.ofInt 3)).Denotes (Decimal.value ⟨3, 0⟩) :=
      .of_noted (m := 6755399441055744) (e := -51) (by decide +kernel) (by decide)
        (by decide +kernel)
    refine ⟨_, _, hsix, hthree, 2, by decide, ?_⟩
    norm_num [Decimal.value]
  have onStep : OnStep (((8 : Int) : ℚ) - (2 : Int)) (3 : Int) := ⟨2, by norm_num⟩
  have hbase : (writtenBase threes).Denotes ((2 : Int) : ℚ) := .int 2
  obtain ⟨judged, divides⟩ :=
    step_judged_exactly_iff (.int 8) hbase rfl (.int 3) (by decide) kept
  exact ⟨kept,
    judged.2 ⟨_, _, _, hread, hdistance, Nat.zero_le _, rfl, iff_of_true hin onStep⟩,
    (divides 8 2 (by decide)).2 ⟨by decide, by decide, fun _ => by decide⟩⟩

/-- A tenth. -/
def tenth : Binary64 := .ofDecimal false 1 (-1)

/-- Three tenths. -/
def threeTenths : Binary64 := .ofDecimal false 3 (-1)

/-- From a tenth on in steps of a tenth. -/
def tenths : Object := [("min", .float tenth), ("step", .float tenth)]

/-- Three tenths are two steps of a tenth away from a tenth, but the floating point difference is
not, and the step is reported. -/
theorem not_judgesExactly_tenths :
    ((Json.float threeTenths).Denotes (3 / 10) ∧ (writtenBase tenths).Denotes (1 / 10) ∧
      Bound.step.written? tenths = some (.float tenth)) ∧
    OnStep (3 / 10 - 1 / 10) (1 / 10) ∧
    ∃ l, ofJson (.obj tenths) = .ok l ∧
      l.firstBroken? (.float threeTenths) checkOrder = .ok none ∧
      l.violation? (.float threeTenths) = .ok (some (.offStep tenth)) := by
  have hvalue (n : Nat) : Decimal.value ⟨n, -1⟩ = n / 10 := by
    rw [Decimal.value, zpow_neg_one, div_eq_mul_inv]
  have htenth : (Json.float tenth).Denotes (1 / 10) := by
    have h : (Json.float tenth).Denotes (Decimal.value ⟨1, -1⟩) :=
      .of_noted (m := 7205759403792794) (e := -56) (by decide +kernel) (by decide)
        (by decide +kernel)
    rwa [hvalue] at h
  have hthree : (Json.float threeTenths).Denotes (3 / 10) := by
    have h : (Json.float threeTenths).Denotes (Decimal.value ⟨3, -1⟩) :=
      .of_noted (m := 5404319552844595) (e := -54) (by decide +kernel) (by decide)
        (by decide +kernel)
    rwa [hvalue] at h
  have hmin : breaks .min threeTenths.quantity tenth.quantity = false := by decide +kernel
  have kept : Limits.firstBroken? { min := some tenth, step := some tenth } (.float threeTenths)
      checkOrder = .ok none := by
    simp [firstBroken?, checkOrder, get?, Json.quantity?, hmin]
  have hdistance : decimalText? (.float (threeTenths.sub tenth)) =
      .ok (some (.finite 19999999999999998 (-17))) := by
    have hrender : (threeTenths.sub tenth).render = "0.19999999999999998" := by decide +kernel
    show Except.ok (DecimalText.read? (threeTenths.sub tenth).render) = _
    rw [hrender]
    rfl
  have hstep : decimalText? (.float tenth) = .ok (some (.finite 1 (-1))) := by
    have hrender : tenth.render = "0.1" := by decide +kernel
    show Except.ok (DecimalText.read? tenth.render) = _
    rw [hrender]
    rfl
  have hmultiple : isMultiple (.float (threeTenths.sub tenth)) (.float tenth) = .ok false := by
    rw [isMultiple, hdistance, Outcome.ok_bind]
    dsimp only
    rw [hstep]
    rfl
  refine ⟨⟨hthree, htenth, rfl⟩, ⟨2, by norm_num⟩,
    { min := some tenth, step := some tenth }, rfl, kept, ?_⟩
  have hzero : tenth.isZero = false := by decide
  have hbase : distance (.float threeTenths) (.float tenth) =
      .ok (.float (threeTenths.sub tenth)) := rfl
  simp [violation?, kept, hzero, stepBase, hbase, hmultiple]

end Limits

end Questionnaire
