import Mathlib.Data.Int.Log
import Mathlib.Data.Rat.Floor
import Mathlib.Tactic.FieldSimp
import Mathlib.Tactic.Linarith
import Mathlib.Tactic.NormNum
import Mathlib.Tactic.Positivity
import Mathlib.Tactic.Ring
import Questionnaire.Number.Binary64

/-!
# Rounding to the binary format

What rounding a quotient gives depends on the value of the quotient only, and a number of the format
is what every value near enough to it is rounded to.

## Main Definitions

* `Binary64.IsCanonical` - the one way in which a number of the format is held

## Main Statements

* `Binary64.unitExponent_eq` - the exponent of a rounded quotient is a logarithm of its value
* `Binary64.ofRatio_congr` - equal quotients are rounded to the same number
* `Binary64.ofRatio_eq_of_near` - values near a number of the format are rounded to it
* `Binary64.isCanonical_ofRatio` - rounding gives a number of the format
* `Binary64.sub_cases`, `Binary64.sub_zero` - differences
-/

namespace Questionnaire

/-! ## Rounding to naturals -/

theorem abs_roundDiv_sub_le (num : Nat) {den : Nat} (hden : 0 < den) :
    |(roundDiv num den : ℚ) - num / den| ≤ 1 / 2 := by
  have hpos : (0 : ℚ) < den := by exact_mod_cast hden
  have hsplit : (num : ℚ) / den = (num / den : Nat) + (num % den : Nat) / den := by
    have hnat : ((den * (num / den) + num % den : Nat) : ℚ) = num := by rw [Nat.div_add_mod]
    rw [← hnat]
    push_cast
    field_simp
  have hlow : (0 : ℚ) ≤ (num % den : Nat) / den := by positivity
  rw [hsplit, abs_le]
  unfold roundDiv
  dsimp only
  split
  · rename_i h
    -- rounded down, the remainder being less than half a unit
    have hhalf : ((num % den : Nat) : ℚ) / den < 1 / 2 := by
      rw [div_lt_iff₀ hpos]
      have : (2 * (num % den : Nat) : ℚ) < den := by exact_mod_cast h
      linarith
    constructor <;> linarith
  · rename_i h
    -- rounded up or halfway, and then to the even side
    have hhalf : 1 / 2 ≤ ((num % den : Nat) : ℚ) / den := by
      rw [le_div_iff₀ hpos]
      have : (den : ℚ) ≤ 2 * (num % den : Nat) := by exact_mod_cast Nat.le_of_not_lt h
      linarith
    have hone : ((num % den : Nat) : ℚ) / den < 1 := by
      rw [div_lt_one hpos]
      exact_mod_cast Nat.mod_lt num hden
    split
    · push_cast
      constructor <;> linarith
    · rename_i h'
      have hhalf' : ((num % den : Nat) : ℚ) / den ≤ 1 / 2 := by
        rw [div_le_iff₀ hpos]
        have : (2 * (num % den : Nat) : ℚ) ≤ den := by exact_mod_cast Nat.le_of_not_lt h'
        linarith
      obtain hpar | hpar := Nat.mod_two_eq_zero_or_one (num / den) <;> rw [hpar] <;> push_cast <;>
        constructor <;> linarith

/-- The nearest natural is the one that is nearer than half a unit. -/
theorem roundDiv_eq_of_near {num den m : Nat} (hden : 0 < den) (low : (m : ℚ) - 1 / 2 < num / den)
    (high : (num : ℚ) / den < m + 1 / 2) : roundDiv num den = m := by
  have hround := abs_le.1 (abs_roundDiv_sub_le num hden)
  have hlt : (roundDiv num den : ℚ) < m + 1 := by linarith
  have hgt : (m : ℚ) < roundDiv num den + 1 := by linarith
  have hlt' : roundDiv num den < m + 1 := by exact_mod_cast hlt
  have hgt' : m < roundDiv num den + 1 := by exact_mod_cast hgt
  omega

theorem le_roundDiv {num den m : Nat} (hden : 0 < den) (h : (m : ℚ) ≤ num / den) :
    m ≤ roundDiv num den := by
  have hround := abs_le.1 (abs_roundDiv_sub_le num hden)
  have hgt : (m : ℚ) < roundDiv num den + 1 := by linarith
  have hgt' : m < roundDiv num den + 1 := by exact_mod_cast hgt
  omega

theorem roundDiv_le {num den m : Nat} (hden : 0 < den) (h : (num : ℚ) / den ≤ m) :
    roundDiv num den ≤ m := by
  have hround := abs_le.1 (abs_roundDiv_sub_le num hden)
  have hlt : (roundDiv num den : ℚ) < m + 1 := by linarith
  have hlt' : roundDiv num den < m + 1 := by exact_mod_cast hlt
  omega

theorem roundDiv_mul_left {c : Nat} (hc : 0 < c) (num den : Nat) :
    roundDiv (c * num) (c * den) = roundDiv num den := by
  have hlt (a b : Nat) : 2 * (c * a) < c * b ↔ 2 * a < b := by
    rw [Nat.mul_left_comm]
    exact Nat.mul_lt_mul_left hc
  have hgt (a b : Nat) : c * b < 2 * (c * a) ↔ b < 2 * a := by
    rw [Nat.mul_left_comm]
    exact Nat.mul_lt_mul_left hc
  unfold roundDiv
  simp only [Nat.mul_div_mul_left _ _ hc, Nat.mul_mod_mul_left, hlt, hgt]

/-- The nearest natural depends on the value of the quotient only. -/
theorem roundDiv_congr {num den num' den' : Nat} (hden : 0 < den) (hden' : 0 < den')
    (h : (num : ℚ) / den = num' / den') : roundDiv num den = roundDiv num' den' := by
  have hne : (den : ℚ) ≠ 0 := by exact_mod_cast hden.ne'
  have hne' : (den' : ℚ) ≠ 0 := by exact_mod_cast hden'.ne'
  have hcross : den' * num = den * num' := by
    rw [div_eq_div_iff hne hne'] at h
    have : ((den' * num : Nat) : ℚ) = (den * num' : Nat) := by
      push_cast
      linarith
    exact_mod_cast this
  calc roundDiv num den = roundDiv (den' * num) (den' * den) := (roundDiv_mul_left hden' _ _).symm
    _ = roundDiv (den * num') (den * den') := by rw [hcross, Nat.mul_comm den' den]
    _ = roundDiv num' den' := roundDiv_mul_left hden _ _

namespace Binary64

/-! ## The exponent of a quotient -/

/-- `num / den` divided by `b ^ e`, as a quotient of naturals. -/
def scaled (b num den : Nat) (e : Int) : Nat × Nat :=
  if 0 ≤ e then (num, den * Nat.pow b e.toNat) else (num * Nat.pow b (-e).toNat, den)

theorem scaled_pos {b den : Nat} (hb : 0 < b) (hden : 0 < den) (num : Nat) (e : Int) :
    0 < (scaled b num den e).2 := by
  unfold scaled
  split
  · exact Nat.mul_pos hden (Nat.pow_pos hb)
  · exact hden

theorem scaled_ratio (b num den : Nat) (e : Int) :
    ((scaled b num den e).1 : ℚ) / (scaled b num den e).2 = num / den / (b : ℚ) ^ e := by
  unfold scaled
  split
  · rename_i he
    have hpow : (b : ℚ) ^ e = (b ^ e.toNat : Nat) := by
      conv_lhs => rw [← Int.toNat_of_nonneg he]
      rw [zpow_natCast]
      push_cast
      rfl
    rw [hpow, Nat.pow_eq]
    push_cast
    rw [div_div]
  · rename_i he
    have hpow : (b : ℚ) ^ e = ((b ^ (-e).toNat : Nat) : ℚ)⁻¹ := by
      conv_lhs => rw [← neg_neg e, ← Int.toNat_of_nonneg (show 0 ≤ -e by omega)]
      rw [zpow_neg, zpow_natCast]
      push_cast
      rfl
    rw [hpow, div_inv_eq_mul, Nat.pow_eq]
    push_cast
    ring

theorem scaleDown_pos {den : Nat} (hden : 0 < den) (num : Nat) (e : Int) :
    0 < (scaleDown num den e).2 := scaled_pos (by decide) hden num e

theorem scaleDown_ratio (num den : Nat) (e : Int) :
    ((scaleDown num den e).1 : ℚ) / (scaleDown num den e).2 = num / den / 2 ^ e :=
  scaled_ratio 2 num den e

theorem two_zpow_pos (k : Int) : (0 : ℚ) < 2 ^ k := zpow_pos (by norm_num) k

theorem log_eq {r : ℚ} {k : Int} (low : (2 : ℚ) ^ k ≤ r) (high : r < 2 ^ (k + 1)) :
    Int.log 2 r = k := by
  have hr : 0 < r := lt_of_lt_of_le (two_zpow_pos k) low
  have hle : k ≤ Int.log 2 r := (Int.zpow_le_iff_le_log (by decide) hr).1 low
  have hlt : Int.log 2 r < k + 1 := (Int.lt_zpow_iff_log_lt (by decide) hr).1 high
  omega

theorem ratio_pos {num den : Nat} (hnum : 0 < num) (hden : 0 < den) : (0 : ℚ) < num / den := by
  have : (0 : ℚ) < num := by exact_mod_cast hnum
  have : (0 : ℚ) < den := by exact_mod_cast hden
  positivity

theorem zpow_log2_le {n : Nat} (hn : 0 < n) : (2 : ℚ) ^ (n.log2 : Int) ≤ n := by
  rw [zpow_natCast]
  exact_mod_cast Nat.log2_self_le hn.ne'

theorem lt_zpow_log2 (n : Nat) : (n : ℚ) < 2 ^ ((n.log2 : Int) + 1) := by
  have h : n < 2 ^ (n.log2 + 1) := Nat.lt_log2_self
  have h' : (n : ℚ) < (2 : ℚ) ^ (n.log2 + 1) := by exact_mod_cast h
  rw [← zpow_natCast] at h'
  exact_mod_cast h'

/-- The binary lengths of numerator and denominator locate a quotient between two powers. -/
theorem ratio_between {num den : Nat} (hnum : 0 < num) (hden : 0 < den) :
    (2 : ℚ) ^ ((num.log2 : Int) - den.log2 - 1) < num / den ∧
      (num : ℚ) / den < 2 ^ ((num.log2 : Int) - den.log2 + 1) := by
  have hpos : (0 : ℚ) < den := by exact_mod_cast hden
  constructor
  · rw [lt_div_iff₀ hpos]
    calc (2 : ℚ) ^ ((num.log2 : Int) - den.log2 - 1) * den
        < 2 ^ ((num.log2 : Int) - den.log2 - 1) * 2 ^ ((den.log2 : Int) + 1) :=
          mul_lt_mul_of_pos_left (lt_zpow_log2 den) (two_zpow_pos _)
      _ = 2 ^ (num.log2 : Int) := by
          rw [← zpow_add₀ (by norm_num)]
          congr 1
          omega
      _ ≤ num := zpow_log2_le hnum
  · rw [div_lt_iff₀ hpos]
    calc (num : ℚ) < 2 ^ ((num.log2 : Int) + 1) := lt_zpow_log2 num
      _ = 2 ^ ((num.log2 : Int) - den.log2 + 1) * 2 ^ (den.log2 : Int) := by
          rw [← zpow_add₀ (by norm_num)]
          congr 1
          omega
      _ ≤ 2 ^ ((num.log2 : Int) - den.log2 + 1) * den :=
          mul_le_mul_of_nonneg_left (zpow_log2_le hden) (two_zpow_pos _).le

/-- The exponent of a rounded quotient is a logarithm of its value. -/
theorem unitExponent_eq {num den : Nat} (hnum : 0 < num) (hden : 0 < den) :
    unitExponent num den = max minExponent (Int.log 2 ((num : ℚ) / den) - 52) := by
  obtain ⟨low, high⟩ := ratio_between hnum hden
  unfold unitExponent
  dsimp only
  generalize he : (num.log2 : Int) - den.log2 - 53 = e
  -- the test tells whether the value lies in the lower or the upper binade
  have hscaled : (scaleDown num den e).1 / (scaleDown num den e).2 < Nat.pow 2 53 ↔
      (num : ℚ) / den < 2 ^ (e + 53) := by
    have hpos : (0 : ℚ) < (scaleDown num den e).2 := by exact_mod_cast scaleDown_pos hden num e
    rw [Nat.div_lt_iff_lt_mul (scaleDown_pos hden num e), zpow_add₀ (by norm_num),
      mul_comm ((2 : ℚ) ^ e), ← div_lt_iff₀ (two_zpow_pos e), ← scaleDown_ratio num den e,
      div_lt_iff₀ hpos]
    norm_cast
  split
  · rename_i h
    have hlog : Int.log 2 ((num : ℚ) / den) = e + 52 := by
      refine log_eq (le_of_lt ?_) ?_
      · rwa [show e + 52 = (num.log2 : Int) - den.log2 - 1 by omega]
      · rw [show e + 52 + 1 = e + 53 by omega]
        exact hscaled.1 h
    rw [hlog]
    congr 1
    omega
  · rename_i h
    have hlog : Int.log 2 ((num : ℚ) / den) = e + 53 := by
      refine log_eq ?_ ?_
      · exact le_of_not_gt fun hlt => h (hscaled.2 hlt)
      · rwa [show e + 53 + 1 = (num.log2 : Int) - den.log2 + 1 by omega]
    rw [hlog]
    congr 1
    omega

/-- Equal quotients are rounded to the same number. -/
theorem ofRatio_congr (negative : Bool) {num den num' den' : Nat} (hden : 0 < den)
    (hden' : 0 < den') (h : (num : ℚ) / den = num' / den') :
    ofRatio negative num den = ofRatio negative num' den' := by
  have hzero : num = 0 ↔ num' = 0 := by
    have hne : (den : ℚ) ≠ 0 := by exact_mod_cast hden.ne'
    have hne' : (den' : ℚ) ≠ 0 := by exact_mod_cast hden'.ne'
    have hratio : (num : ℚ) / den = 0 ↔ (num' : ℚ) / den' = 0 := by rw [h]
    simpa [hne, hne'] using hratio
  unfold ofRatio
  by_cases hnum : num = 0
  · rw [if_pos hnum, if_pos (hzero.1 hnum)]
  · have hnum' : num' ≠ 0 := fun h' => hnum (hzero.2 h')
    have hunit : unitExponent num den = unitExponent num' den' := by
      rw [unitExponent_eq (Nat.pos_of_ne_zero hnum) hden,
        unitExponent_eq (Nat.pos_of_ne_zero hnum') hden', h]
    rw [if_neg hnum, if_neg hnum', hunit]
    dsimp only
    congr 1
    refine roundDiv_congr (scaleDown_pos hden _ _) (scaleDown_pos hden' _ _) ?_
    rw [scaleDown_ratio, scaleDown_ratio, h]

/-! ## Numbers of the format -/

/-- The one way in which a number of the format is held: with a mantissa of 53 bits, or with fewer
and the least exponent. -/
def IsCanonical : Binary64 → Prop
  | .finite _ m e =>
    m < 2 ^ 53 ∧ minExponent ≤ e ∧ e ≤ maxExponent ∧ (e = minExponent ∨ 2 ^ 52 ≤ m)
  | _ => True

instance : DecidablePred IsCanonical
  | .nan => inferInstanceAs (Decidable True)
  | .infinity _ => inferInstanceAs (Decidable True)
  | .finite _ m e => inferInstanceAs (Decidable
      (m < 2 ^ 53 ∧ minExponent ≤ e ∧ e ≤ maxExponent ∧ (e = minExponent ∨ 2 ^ 52 ≤ m)))

theorem isCanonical_zero (negative : Bool) : IsCanonical (zero negative) :=
  ⟨by decide, Int.le_refl _, by decide, .inl rfl⟩

theorem isCanonical_pack (negative : Bool) {m : Nat} {e : Int} (hm : m ≤ 2 ^ 53)
    (he : minExponent ≤ e) (hfull : e = minExponent ∨ 2 ^ 52 ≤ m) :
    IsCanonical (pack negative m e) := by
  unfold pack
  split
  · split
    · trivial
    · exact ⟨by decide, by omega, by omega, .inr (by decide)⟩
  · rename_i hne
    split
    · trivial
    · have hne' : m ≠ 2 ^ 53 := hne
      exact ⟨by omega, he, by omega, hfull⟩

theorem ratio_lt_of_log {r : ℚ} {e : Int} {k : Nat} (hlog : Int.log 2 r < e + k) :
    r < 2 ^ k * 2 ^ e := by
  calc r < 2 ^ (Int.log 2 r + 1) := by exact_mod_cast Int.lt_zpow_succ_log_self (by decide) r
    _ ≤ 2 ^ (e + (k : Int)) := zpow_le_zpow_right₀ (by norm_num) (by omega)
    _ = 2 ^ k * 2 ^ e := by rw [zpow_add₀ (by norm_num), zpow_natCast, mul_comm]

theorem le_ratio_of_log {r : ℚ} (hr : 0 < r) {e : Int} {k : Nat} (hlog : e + k ≤ Int.log 2 r) :
    2 ^ k * 2 ^ e ≤ r := by
  calc (2 : ℚ) ^ k * 2 ^ e = 2 ^ (e + (k : Int)) := by
        rw [zpow_add₀ (by norm_num), zpow_natCast, mul_comm]
    _ ≤ 2 ^ (Int.log 2 r) := zpow_le_zpow_right₀ (by norm_num) hlog
    _ ≤ r := by exact_mod_cast Int.zpow_log_le_self (by decide) hr

/-- Rounding gives a number of the format. -/
theorem isCanonical_ofRatio (negative : Bool) (num : Nat) {den : Nat} (hden : 0 < den) :
    IsCanonical (ofRatio negative num den) := by
  unfold ofRatio
  split
  · exact isCanonical_zero negative
  · rename_i hnum
    have hnum := Nat.pos_of_ne_zero hnum
    have hratio := ratio_pos hnum hden
    have hunit := unitExponent_eq hnum hden
    dsimp only
    generalize unitExponent num den = e at hunit
    have hpos := two_zpow_pos e
    have hle : (num : ℚ) / den / 2 ^ e ≤ (2 ^ 53 : Nat) := by
      rw [div_le_iff₀ hpos]
      push_cast
      exact (ratio_lt_of_log (k := 53) (by push_cast; omega)).le
    rw [← scaleDown_ratio] at hle
    refine isCanonical_pack negative (roundDiv_le (scaleDown_pos hden num e) hle) (by omega) ?_
    by_cases he : e = minExponent
    · exact .inl he
    · -- above the least exponent the mantissa is full
      have hge : ((2 ^ 52 : Nat) : ℚ) ≤ num / den / 2 ^ e := by
        rw [le_div_iff₀ hpos]
        push_cast
        exact le_ratio_of_log (k := 52) hratio (by push_cast; omega)
      rw [← scaleDown_ratio] at hge
      exact .inr (le_roundDiv (scaleDown_pos hden num e) hge)

/-- A value is rounded to the nearest number of its own exponent. -/
theorem ofRatio_eq_of_unitExponent {negative : Bool} {num den m : Nat} {e : Int} (hden : 0 < den)
    (hnum : 0 < num) (hunit : unitExponent num den = e) (hlt : m < 2 ^ 53) (hmax : e ≤ maxExponent)
    (low : ((m : ℚ) - 1 / 2) * 2 ^ e < num / den)
    (high : (num : ℚ) / den < (m + 1 / 2) * 2 ^ e) :
    ofRatio negative num den = .finite negative m e := by
  have hpos := two_zpow_pos e
  have hround : roundDiv (scaleDown num den e).1 (scaleDown num den e).2 = m := by
    refine roundDiv_eq_of_near (scaleDown_pos hden num e) ?_ ?_ <;> rw [scaleDown_ratio]
    · rwa [lt_div_iff₀ hpos]
    · rwa [div_lt_iff₀ hpos]
  rw [ofRatio, if_neg hnum.ne']
  dsimp only
  rw [hunit, hround, pack, if_neg (show m ≠ Nat.pow 2 53 from hlt.ne), if_neg (Int.not_lt.2 hmax)]

/-- A value just below a power of two is rounded up to it, although its own exponent is smaller. -/
theorem ofRatio_eq_power {negative : Bool} {num den : Nat} {e : Int} (hden : 0 < den)
    (hnum : 0 < num) (hmin : minExponent < e) (hmax : e ≤ maxExponent)
    (low : ((2 : ℚ) ^ 52 - 1 / 4) * 2 ^ e < num / den)
    (high : (num : ℚ) / den < 2 ^ 52 * 2 ^ e) :
    ofRatio negative num den = .finite negative (2 ^ 52) e := by
  have hpos := two_zpow_pos e
  have hratio := ratio_pos hnum hden
  have hhalf : (2 : ℚ) ^ (e - 1) = 2 ^ e / 2 := by
    rw [zpow_sub_one₀ (by norm_num)]
    ring
  have hlog : Int.log 2 ((num : ℚ) / den) = e + 51 := by
    refine log_eq (le_trans ?_ low.le) ?_
    · calc (2 : ℚ) ^ (e + 51) = 2 ^ 51 * 2 ^ e := by
            rw [zpow_add₀ (by norm_num), mul_comm]
            rfl
        _ ≤ ((2 : ℚ) ^ 52 - 1 / 4) * 2 ^ e := mul_le_mul_of_nonneg_right (by norm_num) hpos.le
    · calc (num : ℚ) / den < 2 ^ 52 * 2 ^ e := high
        _ = 2 ^ (e + 51 + 1) := by
            rw [show e + 51 + 1 = e + 52 by omega, zpow_add₀ (by norm_num), mul_comm]
            rfl
  have hunit : unitExponent num den = e - 1 := by
    rw [unitExponent_eq hnum hden, hlog]
    omega
  -- under the smaller exponent the mantissa overflows, and is halved again
  have hround : roundDiv (scaleDown num den (e - 1)).1 (scaleDown num den (e - 1)).2 =
      2 ^ 53 := by
    refine roundDiv_eq_of_near (scaleDown_pos hden num (e - 1)) ?_ ?_ <;>
      rw [scaleDown_ratio, hhalf] <;> push_cast
    · rw [lt_div_iff₀ (by linarith)]
      linarith
    · rw [div_lt_iff₀ (by linarith)]
      linarith
  rw [ofRatio, if_neg hnum.ne']
  dsimp only
  rw [hunit, hround, pack, if_pos (show (2 ^ 53 : Nat) = Nat.pow 2 53 from rfl),
    if_neg (by omega), show e - 1 + 1 = e by omega]
  rfl

/-- Values near a number of the format are rounded to it.  Below a power of two the numbers lie
twice as close together. -/
theorem ofRatio_eq_of_near {negative : Bool} {num den m : Nat} {e : Int} (hden : 0 < den)
    (hm : 0 < m) (canonical : IsCanonical (.finite negative m e))
    (low : ((m : ℚ) - 1 / 2) * 2 ^ e < num / den) (high : (num : ℚ) / den < (m + 1 / 2) * 2 ^ e)
    (edge : m = 2 ^ 52 → ((m : ℚ) - 1 / 4) * 2 ^ e < num / den) :
    ofRatio negative num den = .finite negative m e := by
  obtain ⟨hlt, hmin, hmax, hfull⟩ := canonical
  have hpos := two_zpow_pos e
  have hm1 : (1 : ℚ) ≤ m := by exact_mod_cast hm
  have hratio : (0 : ℚ) < num / den := lt_trans (mul_pos (by linarith) hpos) low
  have hnum : 0 < num := by
    refine Nat.pos_of_ne_zero fun h => ?_
    rw [h] at hratio
    simp at hratio
  by_cases hunit : unitExponent num den = e
  · exact ofRatio_eq_of_unitExponent hden hnum hunit hlt hmax low high
  · -- the exponent can only be smaller, so the value lies just below a power of two
    have hlog : Int.log 2 ((num : ℚ) / den) < e + 53 := by
      refine (Int.lt_zpow_iff_log_lt (by decide) hratio).1 ?_
      have hm53 : (m : ℚ) + 1 ≤ 2 ^ 53 := by exact_mod_cast hlt
      calc (num : ℚ) / den < (m + 1 / 2) * 2 ^ e := high
        _ ≤ 2 ^ 53 * 2 ^ e := mul_le_mul_of_nonneg_right (by linarith) hpos.le
        _ = (2 : Nat) ^ (e + 53) := by
          push_cast
          rw [zpow_add₀ (by norm_num), mul_comm]
          rfl
    rw [unitExponent_eq hnum hden] at hunit
    have hbelow : (num : ℚ) / den < 2 ^ 52 * 2 ^ e :=
      ratio_lt_of_log (k := 52) (by push_cast; omega)
    have hmle : m ≤ 2 ^ 52 := by
      have hlt' : (m : ℚ) - 1 / 2 < 2 ^ 52 := lt_of_mul_lt_mul_right (low.trans hbelow) hpos.le
      have hlt'' : (m : ℚ) < 2 ^ 52 + 1 := by linarith
      have : m < 2 ^ 52 + 1 := by exact_mod_cast hlt''
      omega
    have hmeq : m = 2 ^ 52 := by omega
    have hedge := edge hmeq
    rw [show (m : ℚ) = 2 ^ 52 by exact_mod_cast hmeq] at hedge
    rw [hmeq]
    exact ofRatio_eq_power hden hnum (by omega) hmax hedge hbelow

/-- Rounding gives a finite number of the sign, or an infinity. -/
theorem ofRatio_cases (negative : Bool) (num : Nat) {den : Nat} (hden : 0 < den) :
    (∃ m e, ofRatio negative num den = .finite negative m e ∧
      IsCanonical (.finite negative m e)) ∨ ofRatio negative num den = .infinity negative := by
  have canonical := isCanonical_ofRatio negative num hden
  unfold ofRatio at canonical ⊢
  split
  · exact .inl ⟨0, minExponent, rfl, isCanonical_zero negative⟩
  · next hnum =>
    rw [if_neg hnum] at canonical
    dsimp only at canonical ⊢
    unfold pack at canonical ⊢
    split <;> rename_i hfull
    · rw [if_pos hfull] at canonical
      split <;> rename_i hmax
      · exact .inr rfl
      · rw [if_neg hmax] at canonical
        exact .inl ⟨_, _, rfl, canonical⟩
    · rw [if_neg hfull] at canonical
      split <;> rename_i hmax
      · exact .inr rfl
      · rw [if_neg hmax] at canonical
        exact .inl ⟨_, _, rfl, canonical⟩

/-- A quotient of at least one has a mantissa of 53 bits. -/
theorem full_of_ofRatio {negative negative' : Bool} {num m : Nat} {e : Int} (hnum : 0 < num)
    (h : ofRatio negative num 1 = .finite negative' m e) :
    2 ^ 52 ≤ m ∧ Int.log 2 (num : ℚ) - 52 ≤ e := by
  have hunit := unitExponent_eq hnum Nat.one_pos
  rw [Nat.cast_one, div_one] at hunit
  have hone : (1 : ℚ) ≤ num := by exact_mod_cast hnum
  have hlog : 0 ≤ Int.log 2 (num : ℚ) :=
    (Int.zpow_le_iff_le_log (by decide) (by linarith)).1 (by simpa using hone)
  have canonical := isCanonical_ofRatio negative num Nat.one_pos
  rw [h] at canonical
  have he : unitExponent num 1 ≤ e := by
    unfold ofRatio pack at h
    rw [if_neg hnum.ne'] at h
    dsimp only at h
    split at h <;> split at h <;> cases h <;> omega
  obtain ⟨-, -, -, hmin | hfull⟩ := canonical
  · unfold minExponent at hunit hmin
    omega
  · exact ⟨hfull, by omega⟩

/-! ## Differences -/

theorem toRat_pos {m : Nat} (hm : 0 < m) (e : Int) : 0 < magnitude m e :=
  mul_pos (by exact_mod_cast hm) (two_zpow_pos e)

theorem natAbs_div_den {q : ℚ} (hq : 0 < q) : (q.num.natAbs : ℚ) / q.den = q := by
  have hnum : ((q.num.natAbs : Int) : ℚ) = q.num := by
    rw [Int.natAbs_of_nonneg (Rat.num_pos.2 hq).le]
  have hcast : (q.num.natAbs : ℚ) = q.num := by rw [← hnum]; rfl
  rw [hcast, Rat.num_div_den]

/-- A quotient that is a number of the format is rounded to it. -/
theorem ofRatio_of_value {negative : Bool} {num den m : Nat} {e : Int} (hden : 0 < den) (hm : 0 < m)
    (canonical : IsCanonical (.finite negative m e)) (h : (num : ℚ) / den = magnitude m e) :
    ofRatio negative num den = .finite negative m e := by
  have hpos := two_zpow_pos e
  unfold magnitude at h
  refine ofRatio_eq_of_near hden hm canonical ?_ ?_ fun _ => ?_ <;> rw [h] <;>
    exact mul_lt_mul_of_pos_right (by linarith) hpos

/-- A number of the format is rounded to itself. -/
theorem ofRat_value {negative : Bool} {m : Nat} {e : Int} (hm : 0 < m)
    (canonical : IsCanonical (.finite negative m e)) :
    ofRat (if negative then -magnitude m e else magnitude m e) = .finite negative m e := by
  have hvalue := toRat_pos hm e
  unfold ofRat
  cases negative with
  | false =>
    rw [if_neg Bool.false_ne_true, decide_eq_false (not_lt.2 (Rat.num_pos.2 hvalue).le)]
    exact ofRatio_of_value (magnitude m e).den_pos hm canonical (natAbs_div_den hvalue)
  | true =>
    have hneg : (-magnitude m e).num < 0 := Rat.num_neg.2 (by linarith)
    rw [if_pos rfl, decide_eq_true hneg, Rat.neg_num, Int.natAbs_neg, Rat.neg_den]
    exact ofRatio_of_value (magnitude m e).den_pos hm canonical (natAbs_div_den hvalue)

/-- The difference of finite numbers is finite or an infinity. -/
theorem sub_cases (s : Bool) (m : Nat) (e : Int) (t : Bool) (n : Nat) (f : Int) :
    (∃ u k g, sub (.finite s m e) (.finite t n f) = .finite u k g ∧
      IsCanonical (.finite u k g)) ∨
      ∃ u, sub (.finite s m e) (.finite t n f) = .infinity u := by
  generalize hsum : (if s then -magnitude m e else magnitude m e) +
    (if !t then -magnitude n f else magnitude n f) = sum
  have hsub : sub (.finite s m e) (.finite t n f) =
      if sum = 0 then zero (s && !t) else ofRat sum := by
    rw [← hsum]
    rfl
  rw [hsub]
  split
  · exact .inl ⟨_, 0, minExponent, rfl, isCanonical_zero _⟩
  · rcases ofRatio_cases (sum.num < 0) sum.num.natAbs sum.den_pos with ⟨k, g, h, canonical⟩ | h
    · exact .inl ⟨_, k, g, h, canonical⟩
    · exact .inr ⟨_, h⟩

/-- Nothing is lost by subtracting zero. -/
theorem sub_zero {x : Binary64} (canonical : IsCanonical x) : sub x (zero false) = x := by
  cases x with
  | nan => rfl
  | infinity s => rfl
  | finite s m e =>
    have hzero : magnitude 0 minExponent = 0 := by simp [magnitude]
    have hadd : sub (.finite s m e) (zero false) =
        if (if s then -magnitude m e else magnitude m e) = 0 then zero (s && true)
        else ofRat (if s then -magnitude m e else magnitude m e) := by
      unfold sub neg zero add
      dsimp only
      rw [hzero]
      simp only [Bool.not_false, if_true, neg_zero, add_zero]
      rfl
    rw [hadd]
    rcases Nat.eq_zero_or_pos m with rfl | hm
    · -- zero is held with the least exponent
      obtain ⟨-, -, -, rfl | hfull⟩ := canonical
      · rw [hzero, neg_zero, ite_self, if_pos rfl, Bool.and_true, zero]
      · exact absurd hfull (by decide)
    · have hvalue := toRat_pos hm e
      rw [if_neg (by cases s <;> simp [hvalue.ne']), ofRat_value hm canonical]

end Binary64

end Questionnaire
