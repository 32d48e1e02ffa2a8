import Questionnaire.Answer.Limits
import Questionnaire.Proofs.Number.Multiple
import Questionnaire.Proofs.Number.Whole
import Questionnaire.Proofs.Outcome

/-!
# Multiples of numbers

Whether a number is a multiple of another is found out from the notations of both.  An integer is
written as it is, and a floating point number by its shortest notation.  Between what these denote
the answer is exact, as long as the quotient has 28 digits at most.

## Main Definitions

* `Json.Denotes` - the rational that a number denotes by its notation
* `Limits.OnStep` - a rational is an integer multiple of another
* `Limits.Counted` - it is one by a factor of 28 digits at most

## Main Statements

* `Limits.isMultiple_cases` - what is found out about two numbers
* `Limits.isMultiple_int_iff` - when it is found out whether an integer divides another
* `Json.denotes_ofInt` - what the floating point number of an integer denotes
* `Limits.distance_cases`, `Limits.distance_zero` - distances
-/

namespace Questionnaire

open Binary64 (IsCanonical noted)

/-- The rational that a number denotes: an integer denotes itself, and a floating point number what
its notation says. -/
inductive Json.Denotes : Json → ℚ → Prop
  | int (n : Int) : Denotes (.int n) n
  | float (negative : Bool) {m : Nat} {e : Int} (canonical : IsCanonical (.finite negative m e)) :
    Denotes (.float (.finite negative m e))
      (if negative then -(noted m e).value else (noted m e).value)

namespace Json

theorem value_noted_nonneg (m : Nat) (e : Int) : 0 ≤ (noted m e).value :=
  mul_nonneg (Nat.cast_nonneg _) (Binary64.ten_zpow_pos _).le

theorem isModerate_noted {m : Nat} {e : Int} {negative : Bool}
    (canonical : IsCanonical (.finite negative m e)) :
    DecimalText.IsModerate (noted m e).digits (noted m e).exponent := by
  unfold noted
  split
  · exact ⟨by decide, by decide⟩
  · next hm =>
    obtain ⟨hlow, hhigh⟩ := Binary64.places_shortest (Nat.pos_of_ne_zero hm) canonical
    exact ⟨by omega, by unfold DecimalText.places; omega⟩

variable {v : Json} {q : ℚ}

/-- The notation of a number is read as a moderate decimal of its magnitude. -/
theorem Denotes.exists_decimalText? (h : v.Denotes q) (short : v.longestInt ≤ maxDigits) :
    ∃ d : Decimal, Limits.decimalText? v = .ok (some (.finite d.digits d.exponent)) ∧
      DecimalText.IsModerate d.digits d.exponent ∧ d.value = |q| := by
  have hread : Limits.decimalText? v = .ok (DecimalText.read? v.display) :=
    if_neg (Nat.not_lt.2 short)
  rw [hread]
  cases h with
  | int n =>
    have hshort : n.natAbs.repr.length ≤ 4300 := short
    have hdecimal := Written.decimal_ofNat n.natAbs
    have moderate : DecimalText.IsModerate (Written.ofNat n.natAbs).decimal.digits
        (Written.ofNat n.natAbs).decimal.exponent := by
      rw [hdecimal]
      refine ⟨show (-100000 : Int) ≤ 0 by decide, ?_⟩
      show (n.natAbs.repr.length : Int) + 0 ≤ 100000
      omega
    refine ⟨(Written.ofNat n.natAbs).decimal,
      congrArg _ (DecimalText.read?_written (toList_renderInt n) moderate), moderate, ?_⟩
    rw [hdecimal, Decimal.value, zpow_zero, mul_one, Nat.cast_natAbs, Int.cast_abs]
  | float negative canonical =>
    rename_i m e
    obtain ⟨w, hchars, hw⟩ := Binary64.exists_written negative canonical
    have moderate := DecimalText.isModerate_written hw (isModerate_noted canonical)
    refine ⟨w.decimal, congrArg _ (DecimalText.read?_written hchars moderate), moderate, ?_⟩
    rw [hw.value]
    cases negative <;> simp [abs_of_nonneg (value_noted_nonneg m e)]

end Json

namespace Limits

/-! ## Multiples -/

/-- A rational is an integer multiple of another. -/
def OnStep (x s : ℚ) : Prop := ∃ k : Int, x = k * s

/-- A rational is an integer multiple of another by a factor of 28 digits at most. -/
def Counted (x s : ℚ) : Prop := ∃ k : Int, k.natAbs < 10 ^ Remainder.precision ∧ x = k * s

variable {x s : ℚ}

theorem Counted.onStep (h : Counted x s) : OnStep x s := by
  obtain ⟨k, -, hk⟩ := h
  exact ⟨k, hk⟩

/-- The signs of two rationals do not matter. -/
theorem counted_iff {d t : Decimal} (hd : d.value = |x|) (ht : t.value = |s|) :
    d.IsCountable t ↔ Counted x s := by
  unfold Decimal.IsCountable Counted
  rw [hd, ht]
  constructor
  · rintro ⟨k, hk, h⟩
    have habs : |x| = |(k : ℚ) * s| := by rw [abs_mul, Nat.abs_cast, h]
    rcases abs_eq_abs.1 habs with hx | hx
    · exact ⟨k, by rwa [Int.natAbs_natCast], by rw [hx, Int.cast_natCast]⟩
    · refine ⟨-k, by rwa [Int.natAbs_neg, Int.natAbs_natCast], ?_⟩
      rw [hx, Int.cast_neg, Int.cast_natCast, neg_mul]
  · rintro ⟨k, hk, h⟩
    exact ⟨k.natAbs, hk, by rw [h, abs_mul, Nat.cast_natAbs, Int.cast_abs]⟩

variable {value step : Json}

/-- The answer is what the division of the two notations leaves. -/
theorem isMultiple_of_decimalText {d t : Decimal}
    (hd : decimalText? value = .ok (some (.finite d.digits d.exponent)))
    (ht : decimalText? step = .ok (some (.finite t.digits t.exponent))) {r : Remainder}
    (h : DecimalText.remainderFinite d.digits d.exponent t.digits t.exponent = r) :
    (r = .zero → isMultiple value step = .ok true) ∧
      (r = .nonzero ∨ r = .undefined → isMultiple value step = .ok false) := by
  unfold isMultiple
  rw [hd, Outcome.ok_bind]
  dsimp only
  rw [ht, Outcome.ok_bind]
  dsimp only
  rw [DecimalText.remainder, h]
  constructor
  · rintro rfl
    rfl
  · rintro (rfl | rfl) <;> rfl

/-- What is found out about two numbers: exactly whether one is a multiple of the other, by a factor
of 28 digits at most. -/
theorem isMultiple_cases (hvalue : value.Denotes x) (hstep : step.Denotes s) (hs : s ≠ 0)
    (short : value.longestInt ≤ maxDigits) (short' : step.longestInt ≤ maxDigits) :
    (isMultiple value step = .ok true ∧ Counted x s) ∨
      (isMultiple value step = .ok false ∧ ¬Counted x s) := by
  obtain ⟨d, hd, moderate, habs⟩ := hvalue.exists_decimalText? short
  obtain ⟨t, ht, moderate', habs'⟩ := hstep.exists_decimalText? short'
  have hpos : 0 < t.digits := by
    refine Nat.pos_of_ne_zero fun hzero => hs (abs_eq_zero.1 ?_)
    rw [← habs', Decimal.value, hzero, Nat.cast_zero, zero_mul]
  obtain ⟨multiple, other⟩ := isMultiple_of_decimalText hd ht rfl
  rw [← counted_iff habs habs']
  rcases DecimalText.remainderFinite_cases hpos moderate moderate' with ⟨hzero, h⟩ | ⟨hother, h⟩
  · exact .inl ⟨multiple hzero, h⟩
  · exact .inr ⟨other hother, h⟩

/-- Whether an integer divides another is found out if both have few enough digits, and the quotient
has 28 at most. -/
theorem isMultiple_int_iff (a : Int) {b : Int} (hb : b ≠ 0) :
    isMultiple (.int a) (.int b) = .ok (decide (b ∣ a)) ↔
      a.natAbs.repr.length ≤ maxDigits ∧ b.natAbs.repr.length ≤ maxDigits ∧
        (b ∣ a → (a / b).natAbs < 10 ^ Remainder.precision) := by
  have hcounted : Counted (a : ℚ) b ↔ b ∣ a ∧ (a / b).natAbs < 10 ^ Remainder.precision := by
    constructor
    · rintro ⟨k, hk, h⟩
      have h : a = k * b := by exact_mod_cast h
      rw [h, Int.mul_ediv_cancel _ hb]
      exact ⟨Int.dvd_mul_left k b, hk⟩
    · rintro ⟨hdvd, hk⟩
      exact ⟨a / b, hk, by exact_mod_cast (Int.ediv_mul_cancel hdvd).symm⟩
  have hlong {c : Int} (h : ¬c.natAbs.repr.length ≤ maxDigits) :
      decimalText? (.int c) = .error (.tooManyDigits c.natAbs.repr.length) :=
    if_pos (Nat.lt_of_not_le h)
  by_cases ha : a.natAbs.repr.length ≤ maxDigits
  swap
  · exact iff_of_false (by rw [isMultiple, hlong ha]; nofun) fun h => ha h.1
  by_cases hb' : b.natAbs.repr.length ≤ maxDigits
  swap
  · refine iff_of_false (fun h => ?_) fun h => hb' h.2.1
    obtain ⟨d, hd, -⟩ := (Json.Denotes.int a).exists_decimalText? ha
    rw [isMultiple, hd, Outcome.ok_bind] at h
    dsimp only at h
    rw [hlong hb'] at h
    cases h
  simp only [ha, hb', true_and]
  rcases isMultiple_cases (.int a) (.int b) (by exact_mod_cast hb) ha hb' with ⟨h, hc⟩ | ⟨h, hc⟩
  · obtain ⟨hdvd, hk⟩ := hcounted.1 hc
    rw [h, decide_eq_true hdvd]
    exact iff_of_true rfl fun _ => hk
  · rw [h]
    by_cases hdvd : b ∣ a
    · rw [decide_eq_true hdvd]
      exact iff_of_false nofun fun hk => hc (hcounted.2 ⟨hdvd, hk hdvd⟩)
    · rw [decide_eq_false hdvd]
      exact iff_of_true rfl fun h => absurd h hdvd

/-- One more digit, and a quotient is not found. -/
example : isMultiple (.int (10 ^ 28)) (.int 1) = .ok false := rfl

/-- An infinite distance is no multiple of anything. -/
theorem isMultiple_infinity (negative : Bool) (y : Binary64) :
    isMultiple (.float (.infinity negative)) (.float y) = .ok false := by
  have hinfinite : decimalText? (.float (.infinity negative)) = .ok (some .infinite) := by
    cases negative <;> rfl
  have hstep : decimalText? (.float y) = .ok (DecimalText.read? y.render) := rfl
  unfold isMultiple
  rw [hinfinite, hstep, Outcome.ok_bind]
  dsimp only
  rw [Outcome.ok_bind]
  cases DecimalText.read? y.render <;> rfl

end Limits

/-! ## Distances -/

namespace Json

variable {v w d : Json} {p q : ℚ}

/-- A floating point number denotes what its notation says. -/
theorem Denotes.of_noted {x : Binary64} {m : Nat} {e : Int} {n : Decimal}
    (hx : x = .finite false m e) (canonical : IsCanonical (.finite false m e))
    (hn : noted m e = n) : (Json.float x).Denotes n.value := by
  rw [hx, ← hn]
  exact .float false canonical

theorem Denotes.unique (h : v.Denotes p) (h' : v.Denotes q) : p = q := by
  cases h <;> cases h' <;> rfl

theorem value_noted_pos {negative : Bool} {m : Nat} {e : Int} (hm : 0 < m)
    (canonical : IsCanonical (.finite negative m e)) : 0 < (noted m e).value := by
  obtain ⟨hdigits, -⟩ := Binary64.ofDecimal_shortest negative hm canonical
  rw [noted, if_neg hm.ne']
  exact DecimalText.value_pos hdigits _

/-- A number that is read as a floating point number is read as one that denotes something, and that
is zero only if the number is. -/
theorem Denotes.asFloat {x : Binary64} (h : v.Denotes q) (hx : v.asFloat = .ok x) :
    x.IsCanonical ∧ ∃ r, (Json.float x).Denotes r ∧ (q ≠ 0 → r ≠ 0 ∧ x.isZero = false) := by
  have hpositive {negative : Bool} {m : Nat} {e : Int}
      (canonical : IsCanonical (.finite negative m e)) (hm : q ≠ 0 → 0 < m) :
      ∃ r, (Json.float (.finite negative m e)).Denotes r ∧
        (q ≠ 0 → r ≠ 0 ∧ (Binary64.finite negative m e).isZero = false) := by
    refine ⟨_, .float negative canonical, fun hq => ⟨?_, ?_⟩⟩
    · have hvalue := (value_noted_pos (hm hq) canonical).ne'
      cases negative
      · exact hvalue
      · exact neg_ne_zero.2 hvalue
    · exact beq_eq_false_iff_ne.2 (hm hq).ne'
  cases h with
  | int n =>
    rw [Json.asFloat, Binary64.ofInt?, Binary64.ofInt] at hx
    rcases Binary64.ofRatio_cases (n < 0) n.natAbs Nat.one_pos with ⟨m, e, h, canonical⟩ | h
    · rw [h] at hx
      cases hx
      refine ⟨canonical, hpositive canonical fun hn => ?_⟩
      have hn : n ≠ 0 := by exact_mod_cast hn
      exact (show 0 < 2 ^ 52 by decide).trans_le
        (Binary64.full_of_ofRatio (Int.natAbs_pos.2 hn) h).1
    · rw [h] at hx
      cases hx
  | float negative canonical =>
    cases hx
    refine ⟨canonical, hpositive canonical fun hq => Nat.pos_of_ne_zero fun hm => hq ?_⟩
    rw [noted, if_pos hm]
    cases negative <;> simp [Decimal.value]

theorem denotes_zero (negative : Bool) : (Json.float (.zero negative)).Denotes ((0 : Int) : ℚ) := by
  have h := Denotes.float negative (Binary64.isCanonical_zero negative)
  have hzero : (noted 0 Binary64.minExponent).value = 0 := by
    rw [noted, if_pos rfl, Decimal.value, Nat.cast_zero, zero_mul]
  rw [hzero, neg_zero, ite_self] at h
  rwa [Int.cast_zero]

/-- The floating point number of an integer of fewer than 53 bits denotes the integer. -/
theorem denotes_ofInt {n : Int} (h : n.natAbs < 2 ^ 53) :
    (Json.float (.ofInt n)).Denotes n := by
  by_cases hn : n = 0
  · rw [hn]
    exact denotes_zero false
  · obtain ⟨m, e, hread, hm, canonical, value⟩ := Binary64.exists_ofInt_whole h.le hn
    have hdenotes := Denotes.float (n < 0) canonical
    rw [noted, if_neg hm.ne', Binary64.value_shortest_whole hm canonical h value] at hdenotes
    have hsign : (if decide (n < 0) = true then -(n.natAbs : ℚ) else n.natAbs) = n := by
      rw [Nat.cast_natAbs, Int.cast_abs]
      by_cases hneg : n < 0
      · rw [decide_eq_true hneg, if_pos rfl, abs_of_neg (by exact_mod_cast hneg), neg_neg]
      · rw [decide_eq_false hneg, if_neg Bool.false_ne_true,
          abs_of_nonneg (by exact_mod_cast not_lt.1 hneg)]
    rwa [hsign, ← hread] at hdenotes

/-- An integer of at most 53 bits is read without rounding. -/
theorem asFloat_whole {n : Int} (h : n.natAbs ≤ 2 ^ 53) :
    (Json.int n).asFloat = .ok (.ofInt n) := by
  have hfinite := Binary64.toRat?_ofInt_whole h
  rw [Json.asFloat, Binary64.ofInt?]
  cases hread : Binary64.ofInt n with
  | finite s m e => rfl
  | _ =>
    rw [hread] at hfinite
    cases hfinite

theorem longestInt_whole {n : Int} (h : n.natAbs < 2 ^ 53) :
    (Json.int n).longestInt ≤ maxDigits := by
  show n.natAbs.repr.length ≤ 4300
  generalize n.natAbs = n at h ⊢
  rcases Nat.eq_zero_or_pos n with rfl | hn
  · decide
  · have hlt : 10 ^ (n.repr.length - 1) < 10 ^ 16 :=
      lt_of_le_of_lt (pow_length_repr_le hn) (h.trans (by decide))
    have := (Nat.pow_lt_pow_iff_right (by decide)).1 hlt
    omega

end Json

namespace Limits

variable {v w d : Json} {p q : ℚ}

/-- The distance of two numbers denotes something or is infinite. -/
theorem distance_cases (hv : v.Denotes p) (hw : w.Denotes q) (h : distance v w = .ok d) :
    (∃ r, d.Denotes r) ∨ ∃ negative, d = .float (.infinity negative) := by
  -- two integers have an exact difference, and any other two a rounded one
  have hfloats (h : (do
      let x ← v.asFloat
      let y ← w.asFloat
      pure (Json.float (x.sub y))) = Except.ok d) :
      (∃ r, d.Denotes r) ∨ ∃ negative, d = .float (.infinity negative) := by
    obtain ⟨x, hx, h⟩ := Outcome.bind_eq_ok_iff.1 h
    obtain ⟨y, hy, h⟩ := Outcome.bind_eq_ok_iff.1 h
    cases h
    obtain ⟨-, r, hr, -⟩ := hv.asFloat hx
    obtain ⟨-, r', hr', -⟩ := hw.asFloat hy
    cases hr with
    | float s _ =>
      cases hr' with
      | float t _ =>
        rcases Binary64.sub_cases s _ _ t _ _ with ⟨u, k, g, hsub, canonical⟩ | ⟨u, hsub⟩
        · rw [hsub]
          exact .inl ⟨_, .float u canonical⟩
        · rw [hsub]
          exact .inr ⟨u, rfl⟩
  cases hv with
  | int n =>
    cases hw with
    | int m =>
      cases h
      exact .inl ⟨_, .int (n - m)⟩
    | float t _ => exact hfloats h
  | float s _ => exact hfloats h

/-- The distance from zero is the number itself. -/
theorem distance_zero (hv : v.Denotes q) :
    ∃ d, distance v (.int 0) = .ok d ∧ d.Denotes q ∧ d.longestInt = v.longestInt := by
  cases hv with
  | int n =>
    refine ⟨.int n, ?_, .int n, rfl⟩
    show Except.ok (Json.int (n - 0)) = _
    rw [Int.sub_zero]
  | float negative canonical =>
    refine ⟨_, ?_, .float negative canonical, rfl⟩
    show Except.ok (Json.float (Binary64.sub _ (Binary64.zero false))) = _
    rw [Binary64.sub_zero canonical]

end Limits

end Questionnaire
