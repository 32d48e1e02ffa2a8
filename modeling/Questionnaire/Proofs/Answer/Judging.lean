import Questionnaire.Proofs.Answer.Multiples
import Questionnaire.Proofs.Answer.Reading

/-!
# Numbers are always judged

Limits hold numbers of the format, and a number in an answer is one of the format or an integer
that the format holds.  Between these every bound is compared and every distance is computed, and
the decimals that are divided are moderate, so a judgement is always reached.

## Main Definitions

* `Json.IsAmount` - a number as answers give it
* `Limits.IsCanonical` - limits in numbers of the format
* `DecimalText.IsModest` - a decimal of moderate size, or a special value

## Main Statements

* `Answer.isAmount_of_readAmount?` - the number in an answer
* `DecimalText.IsModest.remainder_ne_tooLarge` - what a division leaves is not too large
* `Limits.exists_violation?` - a number in an answer is judged
-/

namespace Questionnaire

open Binary64 (IsCanonical noted largest)

/-- A number as answers give it: an integer within the range of the format, or a number of the
format. -/
inductive Json.IsAmount : Json → Prop
  | int {n : Int} (h : (n.natAbs : ℚ) ≤ largest) : IsAmount (.int n)
  | float {x : Binary64} (canonical : IsCanonical x) : IsAmount (.float x)

theorem Binary64.largest_le_ten_zpow : largest ≤ 10 ^ (400 : Int) := by
  calc largest ≤ 2 ^ (53 : Int) * 2 ^ maxExponent :=
        mul_le_mul_of_nonneg_right (by norm_num) (two_zpow_pos _).le
    _ = 2 ^ (53 + maxExponent) := (zpow_add₀ (by norm_num) _ _).symm
    _ ≤ 2 ^ (1200 : Int) := zpow_le_zpow_right₀ (by norm_num) (by decide)
    _ ≤ 10 ^ (400 : Int) := two_zpow_le_ten_zpow

theorem Binary64.largest_nonneg : 0 ≤ largest :=
  mul_nonneg (by norm_num) (two_zpow_pos _).le

/-- The difference of numbers of the format is one. -/
theorem Binary64.IsCanonical.sub {x y : Binary64} (hx : x.IsCanonical) (hy : y.IsCanonical) :
    (x.sub y).IsCanonical := by
  cases x with
  | nan => trivial
  | infinity s =>
    cases y with
    | nan => trivial
    | infinity t =>
      show (if s = !t then infinity s else nan).IsCanonical
      split <;> trivial
    | finite t n f => trivial
  | finite s m e =>
    cases y with
    | nan => trivial
    | infinity t => trivial
    | finite t n f =>
      rcases sub_cases s m e t n f with ⟨u, k, g, h, canonical⟩ | ⟨u, h⟩
      · rw [h]
        exact canonical
      · rw [h]
        trivial

/-- The number in an answer is one of the format or an integer within its range. -/
theorem Answer.isAmount_of_readAmount? {answer : String} {v : Json}
    (h : readAmount? answer = some v) : v.IsAmount := by
  obtain ⟨x, hx, rfl⟩ := Option.map_eq_some_iff.1 h
  have canonical := Numeral.isCanonical_of_search? hx
  unfold Json.ofWhole
  split
  · next n hn => exact .int (Binary64.natAbs_le_largest canonical hn)
  · exact .float canonical

namespace Json.IsAmount

variable {v : Json}

/-- A number in an answer can be compared. -/
theorem exists_quantity? (h : v.IsAmount) : ∃ q, v.quantity? = some q := by
  cases h with
  | int h => exact ⟨_, rfl⟩
  | float canonical => exact ⟨_, rfl⟩

theorem exists_asFloat (h : v.IsAmount) : ∃ x, v.asFloat = .ok x ∧ x.IsCanonical := by
  cases h with
  | @int n h =>
    obtain ⟨x, hx⟩ := Binary64.exists_ofInt?_eq_some h
    have hread : (Json.int n).asFloat = .ok x := by rw [asFloat, hx]
    exact ⟨x, hread, ((Denotes.int n).asFloat hread).1⟩
  | float canonical => exact ⟨_, rfl, canonical⟩

/-- An integer within the range of the format has fewer digits than a text may give. -/
theorem longestInt_le (h : v.IsAmount) : v.longestInt ≤ maxDigits := by
  cases h with
  | @int n h =>
    show n.natAbs.repr.length ≤ 4300
    generalize n.natAbs = n at h ⊢
    rcases Nat.eq_zero_or_pos n with rfl | hpos
    · decide
    · have hlt : (10 : ℚ) ^ (n.repr.length - 1 : Nat) < 10 ^ (401 : Nat) := by
        calc (10 : ℚ) ^ (n.repr.length - 1 : Nat) ≤ n := by
              exact_mod_cast pow_length_repr_le hpos
          _ ≤ largest := h
          _ ≤ 10 ^ (400 : Nat) := by exact_mod_cast Binary64.largest_le_ten_zpow
          _ < 10 ^ (401 : Nat) := pow_lt_pow_right₀ (by norm_num) (by decide)
      have := (pow_lt_pow_iff_right₀ (by norm_num : (1 : ℚ) < 10)).1 hlt
      omega
  | float canonical => exact Nat.zero_le _

end Json.IsAmount

/-! ## Divisions -/

namespace DecimalText

/-- A decimal of moderate size, or a special value. -/
def IsModest : DecimalText → Prop
  | .finite a e => IsModerate a e
  | _ => True

variable {d s : DecimalText}

/-- What a division of moderate decimals leaves is not too large. -/
theorem IsModest.remainder_ne_tooLarge (hd : d.IsModest) (hs : s.IsModest) :
    d.remainder s ≠ .tooLarge := by
  cases d with
  | infinite => cases s <;> nofun
  | undefined => cases s <;> nofun
  | finite a e =>
    have number : IsModerate a e := hd
    cases s with
    | undefined => nofun
    | infinite =>
      show Remainder.ofDecimal a e ≠ .tooLarge
      rcases Nat.eq_zero_or_pos a with rfl | ha
      · rw [Remainder.ofDecimal, if_pos (.inl rfl)]
        nofun
      · rw [ofDecimal_eq_nonzero number ha]
        nofun
    | finite b f =>
      show remainderFinite a e b f ≠ .tooLarge
      rcases Nat.eq_zero_or_pos b with rfl | hb
      · rw [remainderFinite, if_pos rfl]
        nofun
      · rcases remainderFinite_cases hb number hs with ⟨h, -⟩ | ⟨h | h, -⟩ <;>
          · rw [h]
            nofun

end DecimalText

namespace Limits

/-- The notation of a number is read as a decimal of moderate size or as a special value. -/
theorem exists_decimalText? {v : Json} (h : v.IsAmount) :
    ∃ d, decimalText? v = .ok (some d) ∧ d.IsModest := by
  have hfinite {w : Json} {q : ℚ} (hw : w.Denotes q) (short : w.longestInt ≤ maxDigits) :
      ∃ d, decimalText? w = .ok (some d) ∧ d.IsModest := by
    obtain ⟨d, hd, moderate, -⟩ := hw.exists_decimalText? short
    exact ⟨_, hd, moderate⟩
  have short := h.longestInt_le
  cases h with
  | int h => exact hfinite (.int _) short
  | @float x canonical =>
    cases x with
    | nan => exact ⟨.undefined, rfl, trivial⟩
    | infinity negative => exact ⟨.infinite, by cases negative <;> rfl, trivial⟩
    | finite negative m e => exact hfinite (.float negative canonical) short

/-- Whether one number is a multiple of another is always found out. -/
theorem exists_isMultiple {v w : Json} (hv : v.IsAmount) (hw : w.IsAmount) :
    ∃ b, isMultiple v w = .ok b := by
  obtain ⟨d, hd, modest⟩ := exists_decimalText? hv
  obtain ⟨s, hs, modest'⟩ := exists_decimalText? hw
  unfold isMultiple
  rw [hd, Outcome.ok_bind]
  dsimp only
  rw [hs, Outcome.ok_bind]
  dsimp only
  cases hremainder : d.remainder s with
  | zero => exact ⟨true, rfl⟩
  | nonzero => exact ⟨false, rfl⟩
  | undefined => exact ⟨false, rfl⟩
  | tooLarge => exact absurd hremainder (modest.remainder_ne_tooLarge modest')

/-! ## Judgements -/

/-- Limits in numbers of the format. -/
def IsCanonical (l : Limits) : Prop := ∀ b, ∀ x ∈ l.get? b, x.IsCanonical

variable {l : Limits} {v : Json}

/-- Bounds are compared with every number. -/
theorem exists_firstBroken? (hv : v.IsAmount) (bounds : List Bound) :
    ∃ r, l.firstBroken? v bounds = .ok r := by
  obtain ⟨q, hq⟩ := hv.exists_quantity?
  induction bounds with
  | nil => exact ⟨none, rfl⟩
  | cons b rest ih =>
    rw [firstBroken?]
    cases l.get? b with
    | none => exact ih
    | some limit =>
      dsimp only
      rw [hq]
      dsimp only
      split
      · exact ⟨_, rfl⟩
      · exact ih

/-- Steps are measured from zero or from a number of the format. -/
theorem stepBase_cases (canonical : l.IsCanonical) :
    l.stepBase = .int 0 ∨ ∃ x, l.stepBase = .float x ∧ x.IsCanonical := by
  unfold stepBase
  split
  · next x h => exact .inr ⟨x, rfl, canonical .min x h⟩
  · next x _ h => exact .inr ⟨x, rfl, canonical .gte x h⟩
  · exact .inl rfl

/-- The distance of a number in an answer is such a number. -/
theorem exists_distance (canonical : l.IsCanonical) (hv : v.IsAmount) :
    ∃ d, distance v l.stepBase = .ok d ∧ d.IsAmount := by
  have hfloats {w : Json} (hw : w.IsAmount) : ∃ d, (do
      let x ← v.asFloat
      let y ← w.asFloat
      pure (Json.float (x.sub y))) = Except.ok d ∧ d.IsAmount := by
    obtain ⟨x, hx, hxc⟩ := hv.exists_asFloat
    obtain ⟨y, hy, hyc⟩ := hw.exists_asFloat
    exact ⟨.float (x.sub y), by rw [hx, Outcome.ok_bind, hy]; rfl, .float (hxc.sub hyc)⟩
  have hzero : Json.IsAmount (.int 0) := .int (by simpa using Binary64.largest_nonneg)
  rcases stepBase_cases canonical with h | ⟨y, h, hy⟩ <;> rw [h]
  · cases hv with
    | int hn => exact ⟨_, rfl, .int (by rwa [Int.sub_zero])⟩
    | float hx => exact hfloats hzero
  · cases hv with
    | int hn => exact hfloats (.float hy)
    | float hx => exact hfloats (.float hy)

/-- A number in an answer is judged, whatever the limits are. -/
theorem exists_violation? (canonical : l.IsCanonical) (hv : v.IsAmount) :
    ∃ r, l.violation? v = .ok r := by
  obtain ⟨broken, hbroken⟩ := exists_firstBroken? (l := l) hv checkOrder
  unfold violation?
  rw [hbroken, Outcome.ok_bind]
  cases broken with
  | some violation => exact ⟨_, rfl⟩
  | none =>
    dsimp only
    cases hstep : l.step with
    | none => exact ⟨_, rfl⟩
    | some step =>
      dsimp only
      split
      · exact ⟨_, rfl⟩
      · obtain ⟨d, hd, amount⟩ := exists_distance canonical hv
        obtain ⟨b, hb⟩ := exists_isMultiple amount (.float (canonical .step step hstep))
        rw [hd, Outcome.ok_bind, hb, Outcome.ok_bind]
        cases b <;> exact ⟨_, rfl⟩

end Limits

end Questionnaire
