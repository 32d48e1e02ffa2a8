import Questionnaire.Proofs.Number.ReadBack

/-!
# Rounding and the order of numbers

Rounding keeps to the side of every number of the format: what is not below such a number is not
rounded below it, and what is not above it is not rounded above it.

## Main Statements

* `Binary64.le_of_ofRatio`, `Binary64.of_ofRatio_le` - quotients next to a magnitude of the format
* `Binary64.le_of_ofRat`, `Binary64.of_ofRat_le` - rationals next to a number of the format
* `Binary64.toRat?_ofRat_self` - a number of the format is rounded to itself
-/

namespace Questionnaire.Binary64

variable {s negative : Bool} {m m' num den : Nat} {e e' : Int}

theorem magnitude_nonneg (m : Nat) (e : Int) : 0 ≤ magnitude m e :=
  mul_nonneg (Nat.cast_nonneg m) (two_zpow_pos e).le

/-- A finite result has the magnitude of the mantissa and the exponent that it is made of. -/
theorem magnitude_of_pack (h : pack negative m e = .finite s m' e') :
    magnitude m' e' = magnitude m e := by
  unfold pack at h
  split at h
  · next hm =>
    split at h
    · cases h
    · cases h
      unfold magnitude
      rw [hm, zpow_add_one₀ (by norm_num)]
      push_cast
      ring
  · split at h
    · cases h
    · cases h
      rfl

/-- A number of the format is below the power of two behind its mantissa. -/
theorem magnitude_lt (canonical : IsCanonical (.finite s m e)) : magnitude m e < 2 ^ 53 * 2 ^ e :=
  mul_lt_mul_of_pos_right (by exact_mod_cast canonical.1) (two_zpow_pos e)

/-- Above the least exponent a mantissa has all its bits. -/
theorem le_magnitude (canonical : IsCanonical (.finite s m e)) (he : e ≠ minExponent) :
    2 ^ 52 * 2 ^ e ≤ magnitude m e := by
  obtain ⟨-, -, -, hmin | hfull⟩ := canonical
  · exact absurd hmin he
  · exact mul_le_mul_of_nonneg_right (by exact_mod_cast hfull) (two_zpow_pos e).le

/-- Powers of two whose exponents differ by one or more. -/
theorem full_mul_le {e f : Int} (h : e < f) : (2 : ℚ) ^ 53 * 2 ^ e ≤ 2 ^ 52 * 2 ^ f := by
  calc (2 : ℚ) ^ 53 * 2 ^ e = 2 ^ 52 * 2 ^ (e + 1) := by
        rw [zpow_add_one₀ (by norm_num)]
        ring
    _ ≤ 2 ^ 52 * 2 ^ f :=
        mul_le_mul_of_nonneg_left (zpow_le_zpow_right₀ (by norm_num) h) (by norm_num)

/-- The rounded mantissa of a quotient under its exponent. -/
theorem magnitude_of_ofRatio (hnum : 0 < num)
    (h : ofRatio negative num den = .finite s m' e') :
    magnitude m' e' = magnitude (roundDiv (scaleDown num den (unitExponent num den)).1
      (scaleDown num den (unitExponent num den)).2) (unitExponent num den) := by
  rw [ofRatio, if_neg hnum.ne'] at h
  exact magnitude_of_pack h

/-- What is not below a magnitude of the format is not rounded below it. -/
theorem le_of_ofRatio (canonical : IsCanonical (.finite s m e)) (hden : 0 < den)
    (h : magnitude m e ≤ num / den) (hround : ofRatio negative num den = .finite negative m' e') :
    magnitude m e ≤ magnitude m' e' := by
  rcases Nat.eq_zero_or_pos m with rfl | hm
  · rw [magnitude, Nat.cast_zero, zero_mul]
    exact magnitude_nonneg m' e'
  have hvalue := toRat_pos hm e
  have hnum : 0 < num := by
    refine Nat.pos_of_ne_zero fun hzero => ?_
    rw [hzero, Nat.cast_zero, zero_div] at h
    exact absurd h (not_le.2 hvalue)
  have hratio := ratio_pos hnum hden
  have hunit := unitExponent_eq hnum hden
  rw [magnitude_of_ofRatio hnum hround]
  generalize unitExponent num den = E at hunit
  have hpos := scaleDown_pos hden num E
  have hlog : Int.log 2 (magnitude m e) ≤ Int.log 2 ((num : ℚ) / den) := Int.log_mono_right hvalue h
  have hle : e ≤ E := by
    by_cases hmin : e = minExponent
    · omega
    · have hfull := (Int.zpow_le_iff_le_log (b := 2) (by decide) hvalue (x := e + 52)).1 (by
        push_cast
        rw [zpow_add₀ (by norm_num), mul_comm]
        exact_mod_cast le_magnitude canonical hmin)
      omega
  rcases Int.lt_or_eq_of_le hle with hlt | rfl
  · -- the rounded mantissa has all its bits under a larger exponent
    have hmin := canonical.2.1
    have hfull : ((2 ^ 52 : Nat) : ℚ) ≤ num / den / 2 ^ E := by
      rw [le_div_iff₀ (two_zpow_pos E)]
      push_cast
      exact le_ratio_of_log (k := 52) hratio (by push_cast; omega)
    rw [← scaleDown_ratio] at hfull
    have hround : 2 ^ 52 ≤ roundDiv (scaleDown num den E).1 (scaleDown num den E).2 :=
      le_roundDiv hpos hfull
    calc magnitude m e ≤ 2 ^ 53 * 2 ^ e := (magnitude_lt canonical).le
      _ ≤ 2 ^ 52 * 2 ^ E := full_mul_le hlt
      _ ≤ magnitude _ E :=
          mul_le_mul_of_nonneg_right (by exact_mod_cast hround) (two_zpow_pos E).le
  · have hscaled : (m : ℚ) ≤ num / den / 2 ^ e := by
      rwa [le_div_iff₀ (two_zpow_pos e)]
    rw [← scaleDown_ratio] at hscaled
    exact mul_le_mul_of_nonneg_right (by exact_mod_cast le_roundDiv hpos hscaled)
      (two_zpow_pos e).le

/-- What is not above a magnitude of the format is not rounded above it. -/
theorem of_ofRatio_le (canonical : IsCanonical (.finite s m e)) (hden : 0 < den)
    (h : (num : ℚ) / den ≤ magnitude m e)
    (hround : ofRatio negative num den = .finite negative m' e') :
    magnitude m' e' ≤ magnitude m e := by
  rcases Nat.eq_zero_or_pos num with rfl | hnum
  · cases hround
    rw [magnitude, Nat.cast_zero, zero_mul]
    exact magnitude_nonneg m e
  have hratio := ratio_pos hnum hden
  have hunit := unitExponent_eq hnum hden
  rw [magnitude_of_ofRatio hnum hround]
  generalize unitExponent num den = E at hunit
  have hpos := scaleDown_pos hden num E
  have hlog : Int.log 2 ((num : ℚ) / den) < e + 53 := by
    refine (Int.lt_zpow_iff_log_lt (by decide) hratio).1 (lt_of_le_of_lt h ?_)
    push_cast
    rw [zpow_add₀ (by norm_num), mul_comm]
    exact_mod_cast magnitude_lt canonical
  have hle : E ≤ e := by
    have hmin := canonical.2.1
    omega
  rcases Int.lt_or_eq_of_le hle with hlt | rfl
  · have hfull : (num : ℚ) / den / 2 ^ E ≤ (2 ^ 53 : Nat) := by
      rw [div_le_iff₀ (two_zpow_pos E)]
      push_cast
      exact (ratio_lt_of_log (k := 53) (by push_cast; omega)).le
    rw [← scaleDown_ratio] at hfull
    have hround : roundDiv (scaleDown num den E).1 (scaleDown num den E).2 ≤ 2 ^ 53 :=
      roundDiv_le hpos hfull
    calc magnitude _ E ≤ 2 ^ 53 * 2 ^ E :=
          mul_le_mul_of_nonneg_right (by exact_mod_cast hround) (two_zpow_pos E).le
      _ ≤ 2 ^ 52 * 2 ^ e := full_mul_le hlt
      _ ≤ magnitude m e := le_magnitude canonical (by omega)
  · have hscaled : (num : ℚ) / den / 2 ^ E ≤ m := by
      rwa [div_le_iff₀ (two_zpow_pos E)]
    rw [← scaleDown_ratio] at hscaled
    exact mul_le_mul_of_nonneg_right (by exact_mod_cast roundDiv_le hpos hscaled)
      (two_zpow_pos E).le

/-! ## Rationals -/

variable {x : Binary64} {p q r : ℚ}

/-- A finite result has the sign that is asked for. -/
theorem exists_of_toRat?_ofRatio (hden : 0 < den)
    (h : (ofRatio negative num den).toRat? = some p) :
    ∃ m' e', ofRatio negative num den = .finite negative m' e' ∧
      p = if negative then -magnitude m' e' else magnitude m' e' := by
  rcases ofRatio_cases negative num hden with ⟨m', e', hround, -⟩ | hround
  · rw [hround] at h
    exact ⟨m', e', hround, (Option.some.inj h).symm⟩
  · rw [hround] at h
    cases h

theorem toRat?_neg (x : Binary64) : x.neg.toRat? = x.toRat?.map (- ·) := by
  cases x with
  | nan => rfl
  | infinity s => rfl
  | finite s m e => cases s <;> simp [neg, toRat?]

/-- Negation changes the sign of what a rational is rounded to. -/
theorem toRat?_ofRat_neg (q : ℚ) : (ofRat (-q)).toRat? = (ofRat q).toRat?.map (- ·) := by
  unfold ofRat
  rw [Rat.neg_num, Rat.neg_den, Int.natAbs_neg]
  rcases lt_trichotomy q.num 0 with hnum | hnum | hnum
  · rw [decide_eq_false (by omega), decide_eq_true hnum, ofRatio_true, toRat?_neg, Option.map_map]
    simp
  · rw [hnum]
    simp [ofRatio, zero, toRat?, magnitude]
  · rw [decide_eq_true (by omega), decide_eq_false (by omega), ofRatio_true, toRat?_neg]

/-- What is not below a number of the format is not rounded below it. -/
theorem le_of_ofRat (canonical : x.IsCanonical) (hx : x.toRat? = some q) (h : q ≤ r)
    (hr : (ofRat r).toRat? = some p) : q ≤ p := by
  obtain ⟨m', e', hround, hp⟩ := exists_of_toRat?_ofRatio r.den_pos hr
  have hnonneg := magnitude_nonneg m' e'
  cases x with
  | nan => cases hx
  | infinity s => cases hx
  | finite s m e =>
    have hq := Option.some.inj hx
    have hmagnitude := magnitude_nonneg m e
    by_cases hneg : r < 0
    · -- both lie below zero, where the order of the magnitudes is the other way
      have hnum := Rat.num_neg.2 hneg
      rw [decide_eq_true hnum, if_pos rfl] at hp
      rw [decide_eq_true hnum] at hround
      have hratio := natAbs_div_den (q := -r) (by linarith)
      rw [Rat.neg_num, Rat.neg_den, Int.natAbs_neg] at hratio
      cases s with
      | false =>
        rw [if_neg Bool.false_ne_true] at hq
        linarith
      | true =>
        rw [if_pos rfl] at hq
        have hle := of_ofRatio_le canonical r.den_pos (by linarith) hround
        linarith
    · have hnum : ¬ r.num < 0 := fun hlt => hneg (Rat.num_neg.1 hlt)
      rw [decide_eq_false hnum, if_neg Bool.false_ne_true] at hp
      rw [decide_eq_false hnum] at hround
      by_cases hpos : 0 < q
      · have hratio := natAbs_div_den (hpos.trans_le h)
        cases s with
        | false =>
          rw [if_neg Bool.false_ne_true] at hq
          have hle := le_of_ofRatio canonical r.den_pos (by linarith) hround
          linarith
        | true =>
          rw [if_pos rfl] at hq
          linarith
      · linarith

theorem isCanonical_neg (canonical : x.IsCanonical) : x.neg.IsCanonical := by
  cases x <;> exact canonical

/-- What is not above a number of the format is not rounded above it. -/
theorem of_ofRat_le (canonical : x.IsCanonical) (hx : x.toRat? = some q) (h : r ≤ q)
    (hr : (ofRat r).toRat? = some p) : p ≤ q := by
  have hneg : x.neg.toRat? = some (-q) := by rw [toRat?_neg, hx, Option.map_some]
  have hr' : (ofRat (-r)).toRat? = some (-p) := by rw [toRat?_ofRat_neg, hr, Option.map_some]
  have hle := le_of_ofRat (isCanonical_neg canonical) hneg (neg_le_neg h) hr'
  linarith

/-- A number of the format is rounded to itself. -/
theorem toRat?_ofRat_self (canonical : x.IsCanonical) (hx : x.toRat? = some q) :
    (ofRat q).toRat? = some q := by
  cases x with
  | nan => cases hx
  | infinity s => cases hx
  | finite s m e =>
    rcases Nat.eq_zero_or_pos m with rfl | hm
    · have hq : q = 0 := by
        rw [← Option.some.inj hx]
        simp [magnitude]
      rw [hq]
      simp [ofRat, ofRatio, zero, toRat?, magnitude]
    · rw [← Option.some.inj hx, ofRat_value hm canonical]
      rfl

end Questionnaire.Binary64
