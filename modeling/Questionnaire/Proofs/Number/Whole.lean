import Questionnaire.Json.Reading
import Questionnaire.Proofs.Number.ReadBack

/-!
# Whole numbers of the binary format

An integer of at most 53 bits, and one with zeros behind these, is a number of the format, so a
decimal that denotes it is read without rounding.  An integer of any size is rounded to a finite
number as long as it does not exceed the largest one.

## Main Definitions

* `Binary64.IsExact` - a magnitude without a fraction that the format holds exactly
* `Binary64.largest` - the largest finite magnitude

## Main Statements

* `Binary64.ofDecimal_of_value` - a decimal whose value is a number of the format is read as it
* `Binary64.toInt?_ofDecimal_iff` - when a decimal without a fraction is read as the integer it
  denotes
* `Binary64.exists_ofInt?_eq_some` - an integer up to the largest magnitude is rounded to a finite
  number
* `Binary64.natAbs_le_largest` - a number of the format that is an integer is one of these
* `Binary64.value_shortest_whole` - the shortest decimal of a whole number is the number
* `Binary64.sub_ofInt` - the difference of whole numbers
-/

namespace Questionnaire

namespace Binary64

/-- A decimal whose value is a number of the format is read as this number. -/
theorem ofDecimal_of_value {digits m : Nat} {exponent e : Int} (hm : 0 < m)
    (canonical : IsCanonical (.finite false m e))
    (value : (digits : ℚ) * 10 ^ exponent = magnitude m e) :
    ofDecimal false digits exponent = .finite false m e := by
  have hpos := two_zpow_pos e
  unfold magnitude at value
  refine ofDecimal_eq_of_near hm canonical ?_ ?_ fun _ => ?_ <;> rw [value] <;>
    exact mul_lt_mul_of_pos_right (by linarith) hpos

/-- A magnitude that the format holds exactly: at most 53 bits, and zeros behind them. -/
def IsExact (n : Nat) : Prop := ∃ m k : Nat, m < 2 ^ 53 ∧ (k : Int) ≤ maxExponent ∧ n = m * 2 ^ k

theorem isExact_of_le {n : Nat} (h : n ≤ 2 ^ 53) : IsExact n := by
  rcases Nat.lt_or_eq_of_le h with hlt | rfl
  · exact ⟨n, 0, hlt, by decide, (Nat.mul_one n).symm⟩
  · exact ⟨1, 53, by decide, by decide, (Nat.one_mul _).symm⟩

/-- A positive magnitude that the format holds exactly is one of its numbers. -/
theorem IsExact.exists_magnitude_eq {n : Nat} (exact : IsExact n) (hn : 0 < n) :
    ∃ m e, 0 < m ∧ IsCanonical (.finite false m e) ∧ magnitude m e = n := by
  obtain ⟨m, k, hlt, hk, rfl⟩ := exact
  have hm : 0 < m := Nat.pos_of_mul_pos_right hn
  -- the mantissa takes all its bits, so the exponent is that of the last of them
  have hlog : m.log2 < 53 := (Nat.log2_lt hm.ne').2 hlt
  have hlow : 2 ^ m.log2 ≤ m := Nat.log2_self_le hm.ne'
  have hhigh : m < 2 ^ (m.log2 + 1) := Nat.lt_log2_self
  have hbits : 2 ^ (m.log2 + 1) * 2 ^ (52 - m.log2) = 2 ^ 53 := by
    rw [← pow_add]
    congr 1
    omega
  have hlead : 2 ^ m.log2 * 2 ^ (52 - m.log2) = 2 ^ 52 := by
    rw [← pow_add]
    congr 1
    omega
  have hpos : 0 < 2 ^ (52 - m.log2) := Nat.pow_pos (by decide)
  refine ⟨m * 2 ^ (52 - m.log2), k - (52 - m.log2 : Nat), Nat.mul_pos hm hpos, ⟨?_, ?_, ?_,
    .inr ?_⟩, ?_⟩
  · exact hbits ▸ Nat.mul_lt_mul_of_pos_right hhigh hpos
  · unfold minExponent
    omega
  · omega
  · exact hlead ▸ Nat.mul_le_mul_right _ hlow
  · unfold magnitude
    rw [zpow_sub₀ (by norm_num), zpow_natCast, zpow_natCast]
    push_cast
    field_simp

/-- The magnitude of an integer of the format. -/
theorem natAbs_of_toInt? {s : Bool} {m : Nat} {e n : Int}
    (h : (finite s m e).toInt? = some n) : (n.natAbs : ℚ) = magnitude m e := by
  have hpos : 0 ≤ magnitude m e := mul_nonneg (Nat.cast_nonneg m) (two_zpow_pos e).le
  have hn : (n : ℚ) = if s then -magnitude m e else magnitude m e := by
    simp only [toInt?, toRat?] at h
    generalize (if s then -magnitude m e else magnitude m e) = q at h ⊢
    split at h
    · rename_i hden
      cases h
      exact Rat.coe_int_num_of_den_eq_one hden
    · cases h
  rw [Nat.cast_natAbs, Int.cast_abs, hn]
  cases s
  · simp [abs_of_nonneg hpos]
  · simp [abs_of_nonneg hpos]

/-- An integer of the format is held exactly. -/
theorem isExact_of_toInt? {x : Binary64} {n : Int} (canonical : IsCanonical x)
    (h : x.toInt? = some n) : IsExact n.natAbs := by
  cases x with
  | nan => cases h
  | infinity s => cases h
  | finite s m e =>
    obtain ⟨hm, -, hmax, -⟩ := canonical
    have hvalue := natAbs_of_toInt? h
    unfold magnitude at hvalue
    by_cases he : 0 ≤ e
    · obtain ⟨k, rfl⟩ := Int.eq_ofNat_of_zero_le he
      refine ⟨m, k, hm, hmax, ?_⟩
      rw [zpow_natCast] at hvalue
      exact_mod_cast hvalue
    · -- some bits stand behind the point, and they are zeros
      have hle : (n.natAbs : ℚ) ≤ m := by
        rw [hvalue]
        refine mul_le_of_le_one_right (Nat.cast_nonneg m) ?_
        exact zpow_le_one_of_nonpos₀ (by norm_num) (by omega)
      have hle : n.natAbs ≤ m := by exact_mod_cast hle
      exact ⟨n.natAbs, 0, lt_of_le_of_lt hle hm, by decide, (Nat.mul_one _).symm⟩

/-- A decimal without a fraction is read as the integer it denotes exactly if the format holds
it. -/
theorem toInt?_ofDecimal_iff (negative : Bool) (n : Nat) :
    (ofDecimal negative n 0).toInt? = some (if negative then -(n : Int) else n) ↔ IsExact n := by
  constructor
  · intro h
    have exact := isExact_of_toInt? (isCanonical_ofDecimal negative n 0) h
    cases negative
    · exact exact
    · simpa using exact
  · intro exact
    rcases Nat.eq_zero_or_pos n with rfl | hn
    · cases negative <;> simp [ofDecimal, zero, toInt?, toRat?, magnitude]
    · obtain ⟨m, e, hm, canonical, value⟩ := exact.exists_magnitude_eq hn
      have hread : ofDecimal false n 0 = .finite false m e :=
        ofDecimal_of_value hm canonical (by rw [zpow_zero, mul_one, value])
      rw [ofDecimal_eq_finite negative hread]
      cases negative
      · simp [toInt?, toRat?, value]
      · simp [toInt?, toRat?, value]

/-- A decimal without a fraction is read as the integer it denotes, up to 53 bits. -/
theorem toInt?_ofDecimal {n : Nat} (h : n ≤ 2 ^ 53) :
    (ofDecimal false n 0).toInt? = some (n : Int) :=
  (toInt?_ofDecimal_iff false n).2 (isExact_of_le h)

/-! ## The range of the format -/

/-- The largest finite magnitude of the format. -/
def largest : ℚ := (2 ^ 53 - 1) * 2 ^ maxExponent

theorem two_pow_le_largest : (2 : ℚ) ^ 1023 ≤ largest := by
  calc (2 : ℚ) ^ 1023 = 2 ^ 52 * 2 ^ maxExponent := by
        rw [← zpow_natCast 2 52, ← zpow_add₀ (by norm_num)]
        rfl
    _ ≤ largest := mul_le_mul_of_nonneg_right (by norm_num) (two_zpow_pos _).le

/-- A quotient up to the largest finite magnitude is rounded to a finite number. -/
theorem exists_finite_ofRatio (negative : Bool) {num den : Nat} (hden : 0 < den)
    (h : (num : ℚ) / den ≤ largest) : ∃ m e, ofRatio negative num den = .finite negative m e := by
  unfold ofRatio
  split
  · exact ⟨0, minExponent, rfl⟩
  · rename_i hnum
    have hnum := Nat.pos_of_ne_zero hnum
    have hratio := ratio_pos hnum hden
    have hunit := unitExponent_eq hnum hden
    have hlog : Int.log 2 ((num : ℚ) / den) < maxExponent + 53 := by
      refine (Int.lt_zpow_iff_log_lt (by decide) hratio).1 (lt_of_le_of_lt h ?_)
      push_cast
      rw [largest, zpow_add₀ (by norm_num), mul_comm]
      exact mul_lt_mul_of_pos_left (by norm_num) (two_zpow_pos _)
    dsimp only
    generalize unitExponent num den = e at hunit
    have hmax : e ≤ maxExponent := by
      rw [hunit]
      unfold minExponent maxExponent at *
      omega
    unfold pack
    split
    · rename_i hfull
      -- a mantissa of 54 bits would lie beyond the largest magnitude
      have hlt : e + 1 ≤ maxExponent := by
        rcases Int.lt_or_eq_of_le hmax with hlt | rfl
        · exact hlt
        · have hle : (num : ℚ) / den / 2 ^ maxExponent ≤ (2 ^ 53 - 1 : Nat) := by
            rw [div_le_iff₀ (two_zpow_pos _)]
            refine h.trans_eq ?_
            rw [largest]
            norm_num
          rw [← scaleDown_ratio] at hle
          have := roundDiv_le (scaleDown_pos hden num maxExponent) hle
          rw [hfull, Nat.pow_eq] at this
          omega
      rw [if_neg (Int.not_lt.2 hlt)]
      exact ⟨_, _, rfl⟩
    · rw [if_neg (Int.not_lt.2 hmax)]
      exact ⟨_, _, rfl⟩

/-- An integer up to the largest finite magnitude denotes a number of the format. -/
theorem exists_ofInt?_eq_some {n : Int} (h : (n.natAbs : ℚ) ≤ largest) :
    ∃ x, ofInt? n = some x := by
  have hratio : (n.natAbs : ℚ) / (1 : Nat) ≤ largest := by simpa using h
  obtain ⟨m, e, hround⟩ := exists_finite_ofRatio (n < 0) Nat.one_pos hratio
  exact ⟨_, by rw [ofInt?, ofInt, hround]⟩

/-- A number of the format that is an integer is at most the largest. -/
theorem natAbs_le_largest {x : Binary64} {n : Int} (canonical : IsCanonical x)
    (h : x.toInt? = some n) : (n.natAbs : ℚ) ≤ largest := by
  cases x with
  | nan => cases h
  | infinity s => cases h
  | finite s m e =>
    obtain ⟨hm, -, hmax, -⟩ := canonical
    have hmag : magnitude m e ≤ largest := by
      have hm' : (m : ℚ) ≤ 2 ^ 53 - 1 := by
        have : ((m + 1 : Nat) : ℚ) ≤ (2 ^ 53 : Nat) := by exact_mod_cast hm
        push_cast at this
        linarith
      exact mul_le_mul hm' (zpow_le_zpow_right₀ (by norm_num) hmax) (two_zpow_pos e).le
        (by norm_num)
    rw [natAbs_of_toInt? h]
    exact hmag

/-! ## Shortest decimals of whole numbers -/

/-- A whole number of fewer than 53 bits is the only one that is read as it. -/
theorem eq_of_ofDecimal_whole {n N m : Nat} {e : Int} (hn : n < 2 ^ 53)
    (value : magnitude m e = n) (h : ofDecimal false N 0 = .finite false m e) : N = n := by
  by_cases hle : N ≤ 2 ^ 53
  · have hint := toInt?_ofDecimal hle
    rw [h] at hint
    have hsame := natAbs_of_toInt? hint
    rw [value, Int.natAbs_natCast] at hsame
    exact_mod_cast hsame
  · -- a larger one is read as a larger one
    have hN : 2 ^ 53 < N := Nat.lt_of_not_le hle
    have hratio : ofRatio false N 1 = .finite false m e := by
      have hlength := length_repr_pos N
      unfold ofDecimal at h
      dsimp only at h
      rw [if_neg (by omega)] at h
      split at h
      · cases h
      · rw [if_neg (by omega), if_pos (Int.le_refl 0)] at h
        simpa using h
    obtain ⟨hfull, he⟩ := full_of_ofRatio (by omega) hratio
    have hNq : ((2 : Nat) : ℚ) ^ (53 : Int) ≤ N := by exact_mod_cast hN.le
    have hlog : 53 ≤ Int.log 2 (N : ℚ) :=
      (Int.zpow_le_iff_le_log (by decide) (by exact_mod_cast (show 0 < N by omega))).1 hNq
    have hlarge : (2 : ℚ) ^ 53 ≤ magnitude m e := by
      calc (2 : ℚ) ^ 53 = 2 ^ 52 * (2 : ℚ) ^ (1 : Int) := by norm_num
        _ ≤ (m : ℚ) * 2 ^ e := mul_le_mul (by exact_mod_cast hfull)
            (zpow_le_zpow_right₀ (by norm_num) (by omega)) (two_zpow_pos _).le
            (Nat.cast_nonneg _)
    rw [value] at hlarge
    have : 2 ^ 53 ≤ n := by exact_mod_cast hlarge
    omega

/-- On a grid of fractions a whole number is a point. -/
theorem scaleDownTen_whole (n : Nat) {g : Int} (hg : g ≤ 0) :
    (scaleDownTen n 1 g).2 = 1 ∧ Decimal.value ⟨(scaleDownTen n 1 g).1, g⟩ = n := by
  have hone : (scaleDownTen n 1 g).2 = 1 := by
    unfold scaleDownTen
    split
    · next hzero =>
      rw [Int.le_antisymm hg hzero]
      rfl
    · rfl
  have hratio := scaleDownTen_ratio n 1 g
  rw [hone, Nat.cast_one, div_one, div_one, eq_div_iff (ten_zpow_pos g).ne'] at hratio
  exact ⟨hone, hratio⟩

theorem roundDiv_one (n : Nat) : roundDiv n 1 = n := by
  simp [roundDiv, Nat.mod_one]

/-- A whole number that is read back at a grid is the point of the grid. -/
theorem value_of_readBackAt?_whole {n m : Nat} {e g : Int} {d : Decimal} (hm : 0 < m)
    (canonical : IsCanonical (.finite false m e)) (hn : n < 2 ^ 53) (value : magnitude m e = n)
    (h : readBackAt? (.finite false m e) n 1 g = some d) : d.value = n := by
  rcases Int.le_total g 0 with hg | hg
  · obtain ⟨hone, hpoint⟩ := scaleDownTen_whole n hg
    have hreads : ofDecimal false (scaleDownTen n 1 g).1 g = .finite false m e :=
      ofDecimal_of_value hm canonical (hpoint.trans value.symm)
    unfold readBackAt? at h
    dsimp only at h
    rw [hone, Nat.div_one, beq_iff_eq.2 hreads, roundDiv_one] at h
    split at h <;> first | cases h; exact hpoint | contradiction
  · -- on a grid of whole numbers only the number itself is read back
    have hexponent := exponent_of_readBackAt? h
    have hreads := ofDecimal_of_readBackAt? h
    have hvalue : (d.digits : ℚ) * 10 ^ d.exponent =
        (d.digits * 10 ^ g.toNat : Nat) * 10 ^ (0 : Int) := by
      rw [hexponent]
      conv_lhs => rw [← Int.toNat_of_nonneg hg]
      rw [zpow_natCast, zpow_zero, mul_one]
      push_cast
      rfl
    have hdigits : 0 < d.digits := by
      refine Nat.pos_of_ne_zero fun hzero => ?_
      rw [hzero] at hreads
      cases hreads
      exact Nat.lt_irrefl 0 hm
    rw [ofDecimal_congr false hdigits (Nat.mul_pos hdigits (Nat.pow_pos (by decide))) hvalue]
      at hreads
    rw [Decimal.value, hvalue, eq_of_ofDecimal_whole hn value hreads, zpow_zero, mul_one]

/-- The shortest decimal of a whole number of fewer than 53 bits is the number itself. -/
theorem value_shortest_whole {n m : Nat} {e : Int} (hm : 0 < m)
    (canonical : IsCanonical (.finite false m e)) (hn : n < 2 ^ 53) (value : magnitude m e = n) :
    (shortest m e).value = n := by
  have hratio : (n : ℚ) / (1 : Nat) = magnitude m e := by rw [Nat.cast_one, div_one, value]
  have hplace := zpow_leadingPlace_le hm Nat.one_pos canonical hratio
  have hplace : leadingPlace n 1 ≤ 16 := by
    refine Int.lt_add_one_iff.1 ((zpow_lt_zpow_iff_right₀ (a := (10 : ℚ)) (by norm_num)).1 ?_)
    have hnq : (n : ℚ) < 2 ^ 53 := by exact_mod_cast hn
    rw [Nat.cast_one, div_one] at hplace
    exact hplace.trans_lt (hnq.trans (by norm_num))
  have hfrom (more : Nat) :
      (shortestFrom (.finite false m e) n 1 (leadingPlace n 1) more).value = n := by
    induction more with
    | zero =>
      obtain ⟨hone, hpoint⟩ := scaleDownTen_whole n (g := leadingPlace n 1 - 16) (by omega)
      unfold shortestFrom
      dsimp only
      rw [hone, roundDiv_one, hpoint]
    | succ more ih =>
      unfold shortestFrom
      split
      · next h => exact value_of_readBackAt?_whole hm canonical hn value h
      · exact ih
  unfold shortest
  dsimp only
  rw [Decimal.reduce, Decimal.value_stripZeros, value, Rat.num_natCast, Rat.den_natCast,
    Int.natAbs_natCast]
  exact hfrom 17

/-! ## Differences of whole numbers -/

/-- An integer of at most 53 bits is held exactly. -/
theorem exists_ofInt_whole {n : Int} (h : n.natAbs ≤ 2 ^ 53) (hn : n ≠ 0) :
    ∃ m e, ofInt n = .finite (n < 0) m e ∧ 0 < m ∧ IsCanonical (.finite (n < 0) m e) ∧
      magnitude m e = n.natAbs := by
  obtain ⟨m, e, hm, canonical, value⟩ :=
    (isExact_of_le h).exists_magnitude_eq (Int.natAbs_pos.2 hn)
  exact ⟨m, e, ofRatio_of_value Nat.one_pos hm canonical (by rw [value, Nat.cast_one, div_one]), hm,
    canonical, value⟩

theorem toRat?_ofInt_whole {n : Int} (h : n.natAbs ≤ 2 ^ 53) : (ofInt n).toRat? = some (n : ℚ) := by
  by_cases hn : n = 0
  · rw [hn]
    decide +kernel
  · obtain ⟨m, e, hread, -, -, value⟩ := exists_ofInt_whole h hn
    rw [hread, toRat?, value]
    rcases Int.lt_or_gt_of_ne hn with hneg | hpos
    · rw [decide_eq_true hneg, if_pos rfl, Nat.cast_natAbs, Int.cast_abs,
        abs_of_neg (by exact_mod_cast hneg), neg_neg]
    · rw [decide_eq_false (by omega), if_neg Bool.false_ne_true, Nat.cast_natAbs, Int.cast_abs,
        abs_of_pos (by exact_mod_cast hpos)]

theorem sub_of_toRat? {x y : Binary64} {p q : ℚ} (hx : x.toRat? = some p) (hy : y.toRat? = some q) :
    (p = q ∧ ∃ s, x.sub y = zero s) ∨ (p ≠ q ∧ x.sub y = ofRat (p - q)) := by
  cases x with
  | nan => cases hx
  | infinity s => cases hx
  | finite s m e =>
    cases y with
    | nan => cases hy
    | infinity t => cases hy
    | finite t n f =>
      have hp : (if s then -magnitude m e else magnitude m e) = p := Option.some.inj hx
      have hq : (if !t then -magnitude n f else magnitude n f) = -q := by
        rw [← Option.some.inj hy]
        cases t <;> simp
      have hsub : sub (.finite s m e) (.finite t n f) =
          if p - q = 0 then zero (s && !t) else ofRat (p - q) := by
        rw [sub_eq_add_neg, ← hq, ← hp]
        rfl
      rw [hsub]
      by_cases hpq : p = q
      · exact .inl ⟨hpq, _, if_pos (sub_eq_zero.2 hpq)⟩
      · exact .inr ⟨hpq, if_neg (sub_ne_zero.2 hpq)⟩

/-- The difference of integers of at most 53 bits is the nearest number to it. -/
theorem sub_ofInt {a b : Int} (ha : a.natAbs ≤ 2 ^ 53) (hb : b.natAbs ≤ 2 ^ 53) :
    (a = b ∧ ∃ s, (ofInt a).sub (ofInt b) = zero s) ∨
      (a ≠ b ∧ (ofInt a).sub (ofInt b) = ofInt (a - b)) := by
  rcases sub_of_toRat? (toRat?_ofInt_whole ha) (toRat?_ofInt_whole hb) with ⟨h, s, hs⟩ | ⟨h, hs⟩
  · exact .inl ⟨by exact_mod_cast h, s, hs⟩
  · refine .inr ⟨by exact_mod_cast h, ?_⟩
    rw [hs, ← Int.cast_sub, ofRat, Rat.num_intCast, Rat.den_intCast]
    rfl

end Binary64

/-- The digits of an integer of at most 53 bits are read as the integer. -/
theorem Numeral.ofWhole_toDigits {n : Nat} (h : n ≤ 2 ^ 53) :
    Json.ofWhole (Numeral.toBinary64 false ⟨Nat.toDigits 10 n, []⟩) = .int n := by
  have hread : Numeral.toBinary64 false ⟨Nat.toDigits 10 n, []⟩ = .ofDecimal false n 0 := by
    simp [Numeral.toBinary64, digitsValue_toDigits]
  rw [hread, Json.ofWhole, Binary64.toInt?_ofDecimal h]

end Questionnaire
