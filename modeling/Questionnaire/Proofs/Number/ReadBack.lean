import Questionnaire.Number.Shortest
import Questionnaire.Proofs.Number.Digits
import Questionnaire.Proofs.Number.Rounding

/-!
# Decimals that read back

A decimal is read by its value only.  The shortest decimal of a number of the binary format reads
back as the number: the candidates with fewer digits are tested, and seventeen digits are always
near enough.

## Main Statements

* `Binary64.ofDecimal_congr` - decimals of the same value read as the same number
* `Binary64.ofDecimal_shortest` - the shortest decimal of a number reads back
* `Binary64.places_shortest` - its places are bounded
-/

namespace Questionnaire

namespace Binary64

theorem ten_zpow_pos (k : Int) : (0 : ℚ) < 10 ^ k := zpow_pos (by norm_num) k

/-! ## The value of a decimal -/

/-- The places of a positive decimal are a logarithm of its value. -/
theorem places_eq {digits : Nat} (hdigits : 0 < digits) (exponent : Int) :
    (digits.repr.length : Int) + exponent = Int.log 10 ((digits : ℚ) * 10 ^ exponent) + 1 := by
  have hpos := ten_zpow_pos exponent
  have hlen := length_repr_pos digits
  have hvalue : (0 : ℚ) < digits * 10 ^ exponent :=
    mul_pos (by exact_mod_cast hdigits) hpos
  have low : (10 : ℚ) ^ ((digits.repr.length : Int) + exponent - 1) ≤ digits * 10 ^ exponent := by
    calc (10 : ℚ) ^ ((digits.repr.length : Int) + exponent - 1)
        = 10 ^ (digits.repr.length - 1) * 10 ^ exponent := by
          rw [← zpow_natCast, ← zpow_add₀ (by norm_num)]
          congr 1
          omega
      _ ≤ digits * 10 ^ exponent :=
          mul_le_mul_of_nonneg_right (by exact_mod_cast pow_length_repr_le hdigits) hpos.le
  have high : (digits : ℚ) * 10 ^ exponent < 10 ^ ((digits.repr.length : Int) + exponent) := by
    rw [zpow_add₀ (by norm_num), zpow_natCast]
    exact mul_lt_mul_of_pos_right (by exact_mod_cast lt_pow_length_repr digits) hpos
  have hle := (Int.zpow_le_iff_le_log (b := 10) (by decide) hvalue).1 (by exact_mod_cast low)
  have hlt := (Int.lt_zpow_iff_log_lt (b := 10) (by decide) hvalue).1 (by exact_mod_cast high)
  omega

/-- A decimal within the range is read by rounding a quotient of its value. -/
theorem ofDecimal_eq_ofRatio (negative : Bool) {digits : Nat} {exponent : Int}
    (hdigits : 0 < digits) (low : -400 ≤ (digits.repr.length : Int) + exponent)
    (high : (digits.repr.length : Int) + exponent ≤ 400) :
    ∃ num den : Nat, 0 < den ∧ (num : ℚ) / den = digits * 10 ^ exponent ∧
      ofDecimal negative digits exponent = ofRatio negative num den := by
  unfold ofDecimal
  dsimp only
  rw [if_neg hdigits.ne', if_neg (by omega), if_neg (by omega)]
  split
  · rename_i he
    refine ⟨_, 1, Nat.one_pos, ?_, rfl⟩
    conv_rhs => rw [← Int.toNat_of_nonneg he]
    rw [zpow_natCast, Nat.pow_eq]
    push_cast
    ring
  · rename_i he
    refine ⟨digits, _, Nat.pow_pos (by decide), ?_, rfl⟩
    conv_rhs => rw [← neg_neg exponent, ← Int.toNat_of_nonneg (show 0 ≤ -exponent by omega)]
    rw [zpow_neg, zpow_natCast, ← div_eq_mul_inv]
    push_cast
    rfl

/-- Decimals of the same value read as the same number. -/
theorem ofDecimal_congr (negative : Bool) {digits digits' : Nat} {exponent exponent' : Int}
    (hdigits : 0 < digits) (hdigits' : 0 < digits')
    (h : (digits : ℚ) * 10 ^ exponent = digits' * 10 ^ exponent') :
    ofDecimal negative digits exponent = ofDecimal negative digits' exponent' := by
  have hplaces : (digits.repr.length : Int) + exponent = digits'.repr.length + exponent' := by
    rw [places_eq hdigits, places_eq hdigits', h]
  by_cases hhigh : 400 < (digits.repr.length : Int) + exponent
  · have hhigh' : 400 < (digits'.repr.length : Int) + exponent' := by omega
    unfold ofDecimal
    rw [if_neg hdigits.ne', if_neg hdigits'.ne', if_pos hhigh, if_pos hhigh']
  · have hhigh' : ¬400 < (digits'.repr.length : Int) + exponent' := by omega
    by_cases hlow : (digits.repr.length : Int) + exponent < -400
    · have hlow' : (digits'.repr.length : Int) + exponent' < -400 := by omega
      unfold ofDecimal
      rw [if_neg hdigits.ne', if_neg hdigits'.ne', if_neg hhigh, if_pos hlow, if_neg hhigh',
        if_pos hlow']
    · have hlow' : ¬(digits'.repr.length : Int) + exponent' < -400 := by omega
      obtain ⟨num, den, hden, hratio, hread⟩ :=
        ofDecimal_eq_ofRatio negative hdigits (Int.not_lt.1 hlow) (Int.not_lt.1 hhigh)
      obtain ⟨num', den', hden', hratio', hread'⟩ :=
        ofDecimal_eq_ofRatio negative hdigits' (Int.not_lt.1 hlow') (Int.not_lt.1 hhigh')
      rw [hread, hread']
      exact ofRatio_congr negative hden hden' (by rw [hratio, hratio', h])

/-- What is read from a decimal is a number of the format. -/
theorem isCanonical_ofDecimal (negative : Bool) (digits : Nat) (exponent : Int) :
    IsCanonical (ofDecimal negative digits exponent) := by
  unfold ofDecimal
  dsimp only
  split
  · exact isCanonical_zero negative
  · split
    · trivial
    · split
      · exact isCanonical_zero negative
      · split
        · exact isCanonical_ofRatio negative _ Nat.one_pos
        · exact isCanonical_ofRatio negative _ (Nat.pow_pos (by decide))

theorem ofRatio_true (num den : Nat) : ofRatio true num den = (ofRatio false num den).neg := by
  unfold ofRatio pack
  dsimp only
  repeat' split
  all_goals rfl

/-- The sign of a decimal is the sign of the number. -/
theorem ofDecimal_true (digits : Nat) (exponent : Int) :
    ofDecimal true digits exponent = (ofDecimal false digits exponent).neg := by
  unfold ofDecimal
  simp only [ofRatio_true]
  repeat' split
  all_goals rfl

theorem ofDecimal_eq_finite {digits m : Nat} {exponent e : Int} (negative : Bool)
    (h : ofDecimal false digits exponent = .finite false m e) :
    ofDecimal negative digits exponent = .finite negative m e := by
  cases negative with
  | false => exact h
  | true =>
    rw [ofDecimal_true, h]
    rfl

/-! ## Seventeen digits -/

theorem two_zpow_le_ten_zpow : (2 : ℚ) ^ (1200 : Int) ≤ 10 ^ (400 : Int) := by
  rw [show (1200 : Int) = 3 * 400 by rfl, zpow_mul]
  exact zpow_le_zpow_left₀ (by decide) (by norm_num) (by norm_num)

/-- A decimal near a number of the format reads as the number. -/
theorem ofDecimal_eq_of_near {digits m : Nat} {exponent e : Int} (hm : 0 < m)
    (canonical : IsCanonical (.finite false m e))
    (low : ((m : ℚ) - 1 / 2) * 2 ^ e < digits * 10 ^ exponent)
    (high : (digits : ℚ) * 10 ^ exponent < (m + 1 / 2) * 2 ^ e)
    (edge : m = 2 ^ 52 → ((m : ℚ) - 1 / 4) * 2 ^ e < digits * 10 ^ exponent) :
    ofDecimal false digits exponent = .finite false m e := by
  have hbounds := canonical
  obtain ⟨hlt, hmin, hmax, -⟩ := hbounds
  have hpos := two_zpow_pos e
  have hm1 : (1 : ℚ) ≤ m := by exact_mod_cast hm
  have hm53 : (m : ℚ) + 1 ≤ 2 ^ 53 := by exact_mod_cast hlt
  have hvalue : (0 : ℚ) < digits * 10 ^ exponent := lt_trans (mul_pos (by linarith) hpos) low
  have hdigits : 0 < digits := by
    refine Nat.pos_of_ne_zero fun h => ?_
    rw [h] at hvalue
    simp at hvalue
  have hplaces := places_eq hdigits exponent
  -- a number of the format has far fewer than four hundred places on either side
  have hlow : -400 ≤ Int.log 10 ((digits : ℚ) * 10 ^ exponent) := by
    refine (Int.zpow_le_iff_le_log (b := 10) (by decide) hvalue).1 (le_trans ?_ low.le)
    calc ((10 : Nat) : ℚ) ^ (-400 : Int) ≤ 2 ^ (-1200 : Int) := by
          rw [zpow_neg, zpow_neg]
          exact inv_anti₀ (two_zpow_pos 1200) two_zpow_le_ten_zpow
      _ ≤ 2 ^ (e - 1) := zpow_le_zpow_right₀ (by norm_num) (by unfold minExponent at hmin; omega)
      _ = 1 / 2 * 2 ^ e := by rw [zpow_sub_one₀ (by norm_num)]; ring
      _ ≤ ((m : ℚ) - 1 / 2) * 2 ^ e := mul_le_mul_of_nonneg_right (by linarith) hpos.le
  have hhigh : Int.log 10 ((digits : ℚ) * 10 ^ exponent) < 400 := by
    refine (Int.lt_zpow_iff_log_lt (b := 10) (by decide) hvalue).1 (lt_of_lt_of_le high ?_)
    calc ((m : ℚ) + 1 / 2) * 2 ^ e ≤ 2 ^ 53 * 2 ^ e :=
          mul_le_mul_of_nonneg_right (by linarith) hpos.le
      _ = 2 ^ (e + 53) := by rw [zpow_add₀ (by norm_num), mul_comm]; rfl
      _ ≤ 2 ^ (1200 : Int) :=
        zpow_le_zpow_right₀ (by norm_num) (by unfold maxExponent at hmax; omega)
      _ ≤ ((10 : Nat) : ℚ) ^ (400 : Int) := two_zpow_le_ten_zpow
  have hplow : -400 ≤ (digits.repr.length : Int) + exponent := by omega
  have hphigh : (digits.repr.length : Int) + exponent ≤ 400 := by omega
  obtain ⟨num, den, hden, hratio, hread⟩ := ofDecimal_eq_ofRatio false hdigits hplow hphigh
  rw [hread]
  refine ofRatio_eq_of_near hden hm canonical ?_ ?_ ?_
  · rwa [hratio]
  · rwa [hratio]
  · rwa [hratio]

/-- The factor by which the first place of a quotient is estimated from its binary length is near
enough to the true one, two places being left to spare. -/
theorem estimate_le {bits place : Int} (h : 100000 * (place + 2) ≤ 30103 * bits)
    (low : -40000 ≤ bits) (high : bits ≤ 1900) : (10 : ℚ) ^ place ≤ 2 ^ bits := by
  rcases Int.le_total 0 bits with hbits | hbits
  · -- a thousand is less than the tenth power of two
    refine le_of_pow_le_pow_left₀ (n := 10) (by decide) (two_zpow_pos bits).le ?_
    calc ((10 : ℚ) ^ place) ^ 10 = 10 ^ (10 * place) := by
          rw [← zpow_natCast, ← zpow_mul, mul_comm]
          rfl
      _ ≤ 10 ^ (3 * bits) := zpow_le_zpow_right₀ (by norm_num) (by omega)
      _ = ((10 : ℚ) ^ (3 : Int)) ^ bits := zpow_mul _ _ _
      _ ≤ ((2 : ℚ) ^ (10 : Int)) ^ bits := zpow_le_zpow_left₀ hbits (by norm_num) (by norm_num)
      _ = ((2 : ℚ) ^ bits) ^ 10 := by
          rw [← zpow_mul, ← zpow_natCast ((2 : ℚ) ^ bits), ← zpow_mul, mul_comm]
          rfl
  · -- the 93rd power of two is less than the 28th of ten
    refine le_of_pow_le_pow_left₀ (n := 93) (by decide) (two_zpow_pos bits).le ?_
    calc ((10 : ℚ) ^ place) ^ 93 = 10 ^ (93 * place) := by
          rw [← zpow_natCast, ← zpow_mul, mul_comm]
          rfl
      _ ≤ 10 ^ (28 * bits) := zpow_le_zpow_right₀ (by norm_num) (by omega)
      _ = (((10 : ℚ) ^ (28 : Int)) ^ (-bits))⁻¹ := by rw [zpow_mul, zpow_neg, inv_inv]
      _ ≤ (((2 : ℚ) ^ (93 : Int)) ^ (-bits))⁻¹ := by
          refine inv_anti₀ (zpow_pos (by norm_num) _) ?_
          exact zpow_le_zpow_left₀ (by omega) (by norm_num) (by norm_num)
      _ = ((2 : ℚ) ^ bits) ^ 93 := by
          rw [zpow_neg, inv_inv, ← zpow_mul, ← zpow_natCast ((2 : ℚ) ^ bits), ← zpow_mul, mul_comm]
          rfl

theorem scaleDownTen_pos {den : Nat} (hden : 0 < den) (num : Nat) (g : Int) :
    0 < (scaleDownTen num den g).2 := scaled_pos (by decide) hden num g

theorem scaleDownTen_ratio (num den : Nat) (g : Int) :
    ((scaleDownTen num den g).1 : ℚ) / (scaleDownTen num den g).2 = num / den / 10 ^ g :=
  scaled_ratio 10 num den g

theorem zpow_leadingPlaceFrom_le {num den : Nat} (hden : 0 < den) (fuel : Nat) {place : Int}
    (h : (10 : ℚ) ^ place ≤ num / den) :
    (10 : ℚ) ^ leadingPlaceFrom num den fuel place ≤ num / den := by
  induction fuel generalizing place with
  | zero => exact h
  | succ fuel ih =>
    unfold leadingPlaceFrom
    dsimp only
    split
    · rename_i hle
      refine ih ?_
      have hpos : (0 : ℚ) < (scaleDownTen num den (place + 1)).2 := by
        exact_mod_cast scaleDownTen_pos hden num (place + 1)
      have hone : (1 : ℚ) ≤ num / den / 10 ^ (place + 1) := by
        rw [← scaleDownTen_ratio, le_div_iff₀ hpos, one_mul]
        exact_mod_cast hle
      rwa [le_div_iff₀ (ten_zpow_pos _), one_mul] at hone
    · exact h

/-- The binary lengths of the quotient that a number of the format is. -/
theorem log2_bounds {num den m : Nat} {e : Int} (hm : 0 < m) (hnum : 0 < num) (hden : 0 < den)
    (canonical : IsCanonical (.finite false m e)) (h : (num : ℚ) / den = magnitude m e) :
    -1074 < (num.log2 : Int) - den.log2 + 1 ∧ (num.log2 : Int) - den.log2 - 1 < 1024 := by
  obtain ⟨hlt, hmin, hmax, -⟩ := canonical
  have hpos := two_zpow_pos e
  have hm1 : (1 : ℚ) ≤ m := by exact_mod_cast hm
  have hm53 : (m : ℚ) < 2 ^ 53 := by exact_mod_cast hlt
  obtain ⟨low, high⟩ := ratio_between hnum hden
  rw [h] at low high
  constructor
  · have hlt' : (2 : ℚ) ^ (-1074 : Int) < 2 ^ ((num.log2 : Int) - den.log2 + 1) := by
      calc (2 : ℚ) ^ (-1074 : Int) ≤ 2 ^ e := zpow_le_zpow_right₀ (by norm_num) hmin
        _ ≤ m * 2 ^ e := le_mul_of_one_le_left hpos.le hm1
        _ < 2 ^ ((num.log2 : Int) - den.log2 + 1) := high
    exact (zpow_lt_zpow_iff_right₀ (by norm_num)).1 hlt'
  · have hlt' : (2 : ℚ) ^ ((num.log2 : Int) - den.log2 - 1) < 2 ^ (1024 : Int) := by
      calc (2 : ℚ) ^ ((num.log2 : Int) - den.log2 - 1) < m * 2 ^ e := low
        _ ≤ 2 ^ 53 * 2 ^ e := mul_le_mul_of_nonneg_right hm53.le hpos.le
        _ = 2 ^ (e + 53) := by rw [zpow_add₀ (by norm_num), mul_comm]; rfl
        _ ≤ 2 ^ (1024 : Int) :=
          zpow_le_zpow_right₀ (by norm_num) (by unfold maxExponent at hmax; omega)
    exact (zpow_lt_zpow_iff_right₀ (by norm_num)).1 hlt'

theorem num_pos_of_ratio {num den m : Nat} {e : Int} (hm : 0 < m)
    (h : (num : ℚ) / den = magnitude m e) : 0 < num := by
  have hratio := toRat_pos hm e
  refine Nat.pos_of_ne_zero fun hzero => ?_
  rw [← h, hzero] at hratio
  simp at hratio

/-- The place that is found lies below the value of a number of the format. -/
theorem zpow_leadingPlace_le {num den m : Nat} {e : Int} (hm : 0 < m) (hden : 0 < den)
    (canonical : IsCanonical (.finite false m e)) (h : (num : ℚ) / den = magnitude m e) :
    (10 : ℚ) ^ leadingPlace num den ≤ num / den := by
  have hnum := num_pos_of_ratio hm h
  obtain ⟨low, -⟩ := ratio_between hnum hden
  -- the estimate only has to hold over the exponents of the format
  obtain ⟨hbits, hbits'⟩ := log2_bounds hm hnum hden canonical h
  unfold leadingPlace
  dsimp only
  refine zpow_leadingPlaceFrom_le hden 8 (le_trans ?_ low.le)
  rw [Int.fdiv_eq_ediv_of_nonneg _ (by decide)]
  exact estimate_le (by omega) (by omega) (by omega)

theorem le_leadingPlaceFrom (num den fuel : Nat) (place : Int) :
    place ≤ leadingPlaceFrom num den fuel place := by
  induction fuel generalizing place with
  | zero => exact Int.le_refl _
  | succ fuel ih =>
    unfold leadingPlaceFrom
    dsimp only
    split
    · have := ih (place + 1)
      omega
    · exact Int.le_refl _

/-- The first digit of a number of the format is not far behind the point. -/
theorem le_leadingPlace {num den m : Nat} {e : Int} (hm : 0 < m) (hden : 0 < den)
    (canonical : IsCanonical (.finite false m e)) (h : (num : ℚ) / den = magnitude m e) :
    -384 ≤ leadingPlace num den := by
  obtain ⟨hbits, -⟩ := log2_bounds hm (num_pos_of_ratio hm h) hden canonical h
  unfold leadingPlace
  dsimp only
  refine le_trans ?_ (le_leadingPlaceFrom num den 8 _)
  rw [Int.fdiv_eq_ediv_of_nonneg _ (by decide)]
  omega

/-! ## The shortest decimal -/

theorem roundDiv_eq_or (num den : Nat) :
    roundDiv num den = num / den ∨ roundDiv num den = num / den + 1 := by
  unfold roundDiv
  dsimp only
  split
  · exact .inl rfl
  · split
    · exact .inr rfl
    · rcases Nat.mod_two_eq_zero_or_one (num / den) with h | h <;> rw [h]
      · exact .inl rfl
      · exact .inr rfl

/-- A candidate with fewer digits has been tested. -/
theorem ofDecimal_of_readBackAt? {x : Binary64} {num den : Nat} {g : Int} {d : Decimal}
    (h : readBackAt? x num den g = some d) : ofDecimal false d.digits d.exponent = x := by
  unfold readBackAt? at h
  dsimp only at h
  split at h
  · cases h
  · rename_i hlow hhigh
    cases h
    exact eq_of_beq hlow
  · rename_i hlow hhigh
    cases h
    exact eq_of_beq hhigh
  · rename_i hlow hhigh
    cases h
    rcases roundDiv_eq_or (scaleDownTen num den g).1 (scaleDownTen num den g).2 with hround | hround
    · rw [hround]
      exact eq_of_beq hlow
    · rw [hround]
      exact eq_of_beq hhigh

theorem exponent_of_readBackAt? {x : Binary64} {num den : Nat} {g : Int} {d : Decimal}
    (h : readBackAt? x num den g = some d) : d.exponent = g := by
  unfold readBackAt? at h
  dsimp only at h
  split at h <;> cases h <;> rfl

/-- Seventeen digits are near enough. -/
theorem ofDecimal_seventeen {num den m : Nat} {e place : Int} (hm : 0 < m) (hden : 0 < den)
    (canonical : IsCanonical (.finite false m e)) (h : (num : ℚ) / den = magnitude m e)
    (hplace : (10 : ℚ) ^ place ≤ num / den) :
    ofDecimal false
      (roundDiv (scaleDownTen num den (place - 16)).1 (scaleDownTen num den (place - 16)).2)
      (place - 16) = .finite false m e := by
  have hgrid := ten_zpow_pos (place - 16)
  have hpos := two_zpow_pos e
  have hm53 : (m : ℚ) < 2 ^ 53 := by exact_mod_cast canonical.1
  have hscaled : 0 < (scaleDownTen num den (place - 16)).2 :=
    scaleDownTen_pos hden num (place - 16)
  have hround := abs_roundDiv_sub_le (scaleDownTen num den (place - 16)).1 hscaled
  rw [scaleDownTen_ratio, h] at hround
  generalize roundDiv (scaleDownTen num den (place - 16)).1 (scaleDownTen num den (place - 16)).2
    = digits at hround ⊢
  -- the grid is finer than the mantissa by more than a factor of ten to the sixteenth
  have hfine : (10 : ℚ) ^ (place - 16) * 10 ^ 16 ≤ m * 2 ^ e := by
    calc (10 : ℚ) ^ (place - 16) * 10 ^ 16 = 10 ^ place := by
          rw [← zpow_natCast, ← zpow_add₀ (by norm_num)]
          congr 1
          push_cast
          omega
      _ ≤ num / den := hplace
      _ = m * 2 ^ e := h
  have hnear : |(digits : ℚ) * 10 ^ (place - 16) - m * 2 ^ e| ≤ 10 ^ (place - 16) / 2 := by
    have hfactor : (digits : ℚ) * 10 ^ (place - 16) - m * 2 ^ e =
        (digits - magnitude m e / 10 ^ (place - 16)) * 10 ^ (place - 16) := by
      unfold magnitude
      field_simp
    rw [hfactor, abs_mul, abs_of_pos hgrid]
    linarith [mul_le_mul_of_nonneg_right hround hgrid.le]
  obtain ⟨hlow, hhigh⟩ := abs_le.1 hnear
  have hsmall : (m : ℚ) * 2 ^ e < 2 ^ 53 * 2 ^ e := mul_lt_mul_of_pos_right hm53 hpos
  refine ofDecimal_eq_of_near hm canonical ?_ ?_ fun hedge => ?_
  · linarith
  · linarith
  · have hm52 : (m : ℚ) = 2 ^ 52 := by exact_mod_cast hedge
    rw [hm52] at hlow hfine ⊢
    linarith

/-- A candidate has seventeen digits at most. -/
theorem le_exponent_shortestFrom (x : Binary64) (num den : Nat) (place : Int) (more : Nat) :
    place - 16 ≤ (shortestFrom x num den place more).exponent := by
  induction more with
  | zero => exact Int.le_refl _
  | succ more ih =>
    unfold shortestFrom
    split
    · rename_i d hd
      rw [exponent_of_readBackAt? hd]
      omega
    · exact ih

theorem ofDecimal_shortestFrom {num den m : Nat} {e place : Int} (hm : 0 < m) (hden : 0 < den)
    (canonical : IsCanonical (.finite false m e)) (h : (num : ℚ) / den = magnitude m e)
    (hplace : (10 : ℚ) ^ place ≤ num / den) (more : Nat) :
    ofDecimal false (shortestFrom (.finite false m e) num den place more).digits
      (shortestFrom (.finite false m e) num den place more).exponent = .finite false m e := by
  induction more with
  | zero => exact ofDecimal_seventeen hm hden canonical h hplace
  | succ more ih =>
    unfold shortestFrom
    split
    · rename_i d hd
      exact ofDecimal_of_readBackAt? hd
    · exact ih

end Binary64

namespace Decimal

theorem value_stripZeros (fuel : Nat) (d : Decimal) : (stripZeros fuel d).value = d.value := by
  induction fuel generalizing d with
  | zero => rfl
  | succ fuel ih =>
    unfold stripZeros
    split
    · rename_i h
      -- the zero that is dropped is one more power of ten
      have htens : (d.digits : ℚ) = (d.digits / 10 : Nat) * 10 := by
        have : d.digits = d.digits / 10 * 10 := by omega
        exact_mod_cast this
      rw [ih, value, value, htens]
      dsimp only
      rw [zpow_add_one₀ (by norm_num)]
      ring
    · rfl

theorem digits_stripZeros_pos (fuel : Nat) {d : Decimal} (hd : 0 < d.digits) :
    0 < (stripZeros fuel d).digits := by
  induction fuel generalizing d with
  | zero => exact hd
  | succ fuel ih =>
    unfold stripZeros
    split
    · exact ih (show 0 < d.digits / 10 by omega)
    · exact hd

theorem le_exponent_stripZeros (fuel : Nat) (d : Decimal) :
    d.exponent ≤ (stripZeros fuel d).exponent := by
  induction fuel generalizing d with
  | zero => exact Int.le_refl _
  | succ fuel ih =>
    unfold stripZeros
    split
    · exact le_trans (by dsimp only; omega) (ih ⟨d.digits / 10, d.exponent + 1⟩)
    · exact Int.le_refl _

end Decimal

namespace Binary64

/-- The shortest decimal of a number reads back. -/
theorem ofDecimal_shortest (negative : Bool) {m : Nat} {e : Int} (hm : 0 < m)
    (canonical : IsCanonical (.finite false m e)) :
    0 < (shortest m e).digits ∧
      ofDecimal negative (shortest m e).digits (shortest m e).exponent = .finite negative m e := by
  unfold shortest
  dsimp only
  have hratio := natAbs_div_den (toRat_pos hm e)
  have hden := (magnitude m e).den_pos
  generalize (magnitude m e).num.natAbs = num at hratio ⊢
  generalize (magnitude m e).den = den at hratio hden ⊢
  have hread := ofDecimal_shortestFrom hm hden canonical hratio
    (zpow_leadingPlace_le hm hden canonical hratio) 17
  generalize shortestFrom (.finite false m e) num den (leadingPlace num den) 17 = d at hread ⊢
  have hdigits : 0 < d.digits := by
    refine Nat.pos_of_ne_zero fun hzero => ?_
    rw [hzero] at hread
    cases hread
    exact Nat.lt_irrefl _ hm
  have hreduced : 0 < d.reduce.digits := Decimal.digits_stripZeros_pos _ hdigits
  refine ⟨hreduced, ofDecimal_eq_finite negative ?_⟩
  rw [← hread]
  exact ofDecimal_congr false hreduced hdigits (Decimal.value_stripZeros _ d)

/-- The shortest decimal of a number has no more than four hundred places on either side. -/
theorem places_shortest {m : Nat} {e : Int} (hm : 0 < m)
    (canonical : IsCanonical (.finite false m e)) :
    -400 ≤ (shortest m e).exponent ∧
      ((shortest m e).digits.repr.length : Int) + (shortest m e).exponent ≤ 400 := by
  constructor
  · have hplace := le_leadingPlace hm (magnitude m e).den_pos canonical
      (natAbs_div_den (toRat_pos hm e))
    exact le_trans (by omega)
      ((le_exponent_shortestFrom _ _ _ _ 17).trans (Decimal.le_exponent_stripZeros _ _))
  · obtain ⟨hdigits, hread⟩ := ofDecimal_shortest false hm canonical
    -- a decimal with more places is read as an infinity
    refine Int.not_lt.1 fun hlt => ?_
    unfold ofDecimal at hread
    rw [if_neg hdigits.ne', if_pos hlt] at hread
    cases hread

end Binary64

end Questionnaire
