import Questionnaire.Number.Multiple
import Questionnaire.Proofs.Number.Numerals
import Questionnaire.Proofs.Text.Characters
import Questionnaire.Proofs.Text.Trimming

/-!
# Remainders of decimals

The remainder of a division of decimals is computed without rounding as long as the quotient has
28 digits at most.  So it tells exactly whether one decimal is a multiple of another by a factor of
that many digits; a greater factor is not found.

## Main Definitions

* `DecimalText.IsModerate` - a decimal whose remainders are neither rounded away nor too large
* `Decimal.IsCountable` - a multiple by a factor of 28 digits at most

## Main Statements

* `DecimalText.remainderFinite_cases` - what a division leaves
* `DecimalText.read?_written` - a written number is read as the decimal it denotes
-/

namespace Questionnaire

/-- One decimal is a multiple of another by a factor of 28 digits at most, signs left out. -/
def Decimal.IsCountable (d s : Decimal) : Prop :=
  ∃ k : Nat, k < 10 ^ Remainder.precision ∧ d.value = k * s.value

namespace DecimalText

variable {a b : Nat} {e f : Int}

/-! ## Division -/

theorem places_eq_log (ha : 0 < a) (e : Int) :
    places a e = Int.log 10 (Decimal.value ⟨a, e⟩) + 1 := Binary64.places_eq ha e

theorem value_pos (ha : 0 < a) (e : Int) : 0 < Decimal.value ⟨a, e⟩ :=
  mul_pos (by exact_mod_cast ha) (Binary64.ten_zpow_pos e)

/-- A decimal of moderate size: its remainders are neither rounded away nor too large. -/
structure IsModerate (digits : Nat) (exponent : Int) : Prop where
  /-- It is not too fine. -/
  fine : -100000 ≤ exponent
  /-- It is not too large. -/
  large : places digits exponent ≤ 100000

theorem ofDecimal_eq_nonzero (moderate : IsModerate a e) (ha : 0 < a) :
    Remainder.ofDecimal a e = .nonzero := by
  obtain ⟨hfine, hlarge⟩ := moderate
  have hlength : e < places a e := by
    have := length_repr_pos a
    unfold places
    omega
  have hvanishes : Remainder.vanishes a e = false := by
    unfold Remainder.vanishes Remainder.leastPlace
    dsimp only
    rw [decide_eq_false (by omega), beq_eq_false_iff_ne.2 (by omega), Bool.false_and,
      Bool.or_false]
  have hoverflows : Remainder.overflows a e = false := by
    unfold Remainder.overflows Remainder.maxPlaces
    dsimp only
    rw [decide_eq_false (by omega), beq_eq_false_iff_ne.2 (by omega), Bool.false_and,
      Bool.or_false]
  unfold Remainder.ofDecimal
  rw [if_neg (by simp [ha.ne', hvanishes]), hoverflows, if_neg Bool.false_ne_true]

/-- A decimal on a finer grid. -/
theorem value_rescaled (a : Nat) {g : Int} (hg : g ≤ e) :
    Decimal.value ⟨a * Nat.pow 10 (e - g).toNat, g⟩ = Decimal.value ⟨a, e⟩ := by
  unfold Decimal.value
  dsimp only
  rw [Nat.pow_eq]
  push_cast
  rw [mul_assoc, ← zpow_natCast, ← zpow_add₀ (by norm_num), Int.toNat_of_nonneg (by omega)]
  congr 2
  omega

/-- On a common grid a multiple is one of naturals. -/
theorem isCountable_iff_of_grid (hb : 0 < b) (g : Int) :
    Decimal.IsCountable ⟨a, g⟩ ⟨b, g⟩ ↔ a / b < 10 ^ Remainder.precision ∧ a % b = 0 := by
  have hne : (10 : ℚ) ^ g ≠ 0 := (Binary64.ten_zpow_pos g).ne'
  have hvalue (k : Nat) : Decimal.value ⟨a, g⟩ = k * Decimal.value ⟨b, g⟩ ↔ a = k * b := by
    unfold Decimal.value
    rw [← mul_assoc, mul_left_inj' hne]
    exact_mod_cast Iff.rfl
  unfold Decimal.IsCountable
  constructor
  · rintro ⟨k, hk, hmul⟩
    rw [hvalue] at hmul
    rw [hmul, Nat.mul_div_cancel _ hb, Nat.mul_mod_left]
    exact ⟨hk, rfl⟩
  · rintro ⟨hquotient, hremainder⟩
    have hdvd := Nat.dvd_of_mod_eq_zero hremainder
    exact ⟨a / b, hquotient, (hvalue _).2 (Nat.div_mul_cancel hdvd).symm⟩

/-- The places of a remainder are no more than those of the step. -/
theorem isModerate_remainder (moderate : IsModerate b f) {g : Int} (hfine : -100000 ≤ g)
    (hg : g ≤ f) {r : Nat} (hr : 0 < r) (hlt : r < b * Nat.pow 10 (f - g).toNat) :
    IsModerate r g := by
  have hb : 0 < b := Nat.pos_of_mul_pos_right (lt_of_le_of_lt (Nat.zero_le r) hlt)
  have hle : Decimal.value ⟨r, g⟩ ≤ Decimal.value ⟨b, f⟩ := by
    rw [← value_rescaled b hg]
    exact mul_le_mul_of_nonneg_right (by exact_mod_cast hlt.le) (Binary64.ten_zpow_pos g).le
  refine ⟨hfine, ?_⟩
  have hlarge := moderate.large
  have hlog := Int.log_mono_right (b := 10) (value_pos hr g) hle
  rw [places_eq_log hb] at hlarge
  rw [places_eq_log hr]
  omega

/-- A number with fewer places than the step is less than the step, and no multiple. -/
theorem not_isCountable_of_lt (ha : 0 < a) (hb : 0 < b) (h : places a e < places b f) :
    ¬Decimal.IsCountable ⟨a, e⟩ ⟨b, f⟩ := by
  rintro ⟨k, -, hmul⟩
  rw [places_eq_log ha, places_eq_log hb] at h
  have hk : 1 ≤ k := by
    refine Nat.pos_of_ne_zero fun hzero => ?_
    have hpos := value_pos ha e
    rw [hmul, hzero] at hpos
    simp at hpos
  have hle : Decimal.value ⟨b, f⟩ ≤ Decimal.value ⟨a, e⟩ := by
    rw [hmul]
    exact le_mul_of_one_le_left (value_pos hb f).le (by exact_mod_cast hk)
  have hlog := Int.log_mono_right (b := 10) (value_pos hb f) hle
  omega

/-- A number with too many places more than the step is no multiple that counts. -/
theorem not_isCountable_of_gt (ha : 0 < a) (hb : 0 < b)
    (h : (Remainder.precision : Int) < places a e - places b f) :
    ¬Decimal.IsCountable ⟨a, e⟩ ⟨b, f⟩ := by
  rintro ⟨k, hk, hmul⟩
  rw [places_eq_log ha, places_eq_log hb] at h
  have hpos := value_pos hb f
  have hfactor : (k : ℚ) < 10 ^ (Remainder.precision : Int) := by
    rw [zpow_natCast]
    exact_mod_cast hk
  have hstep : Decimal.value ⟨b, f⟩ < 10 ^ (Int.log 10 (Decimal.value ⟨b, f⟩) + 1) := by
    exact_mod_cast Int.lt_zpow_succ_log_self (R := ℚ) (b := 10) (by decide) _
  generalize Int.log 10 (Decimal.value ⟨b, f⟩) = place at h hstep
  have hlt : Decimal.value ⟨a, e⟩ <
      ((10 : Nat) : ℚ) ^ ((Remainder.precision : Int) + (place + 1)) := by
    calc Decimal.value ⟨a, e⟩ = k * Decimal.value ⟨b, f⟩ := hmul
      _ < 10 ^ (Remainder.precision : Int) * Decimal.value ⟨b, f⟩ :=
          mul_lt_mul_of_pos_right hfactor hpos
      _ ≤ 10 ^ (Remainder.precision : Int) * 10 ^ (place + 1) :=
          mul_le_mul_of_nonneg_left hstep.le (Binary64.ten_zpow_pos _).le
      _ = ((10 : Nat) : ℚ) ^ ((Remainder.precision : Int) + (place + 1)) := by
          rw [← zpow_add₀ (by norm_num)]
          norm_cast
  have hlog := (Int.lt_zpow_iff_log_lt (by decide) (value_pos ha e)).1 hlt
  omega

/-- What a division of moderate decimals leaves: nothing exactly if the number is a multiple by a
factor that counts, and never a number that is too large. -/
theorem remainderFinite_cases (hb : 0 < b) (number : IsModerate a e) (step : IsModerate b f) :
    (remainderFinite a e b f = .zero ∧ Decimal.IsCountable ⟨a, e⟩ ⟨b, f⟩) ∨
      ((remainderFinite a e b f = .nonzero ∨ remainderFinite a e b f = .undefined) ∧
        ¬Decimal.IsCountable ⟨a, e⟩ ⟨b, f⟩) := by
  unfold remainderFinite
  rw [if_neg hb.ne']
  by_cases hzero : a = 0
  · refine .inl ⟨if_pos hzero, 0, by decide, ?_⟩
    rw [hzero]
    simp [Decimal.value]
  have ha := Nat.pos_of_ne_zero hzero
  rw [if_neg hzero]
  dsimp only
  split
  · next h => exact .inr ⟨.inl (ofDecimal_eq_nonzero number ha),
      not_isCountable_of_lt ha hb (by omega)⟩
  · split
    · next h => exact .inr ⟨.inr rfl, not_isCountable_of_gt ha hb h⟩
    · -- on the finer of the two grids both are whole
      have hfine : -100000 ≤ min e f := le_min number.fine step.fine
      have hgrid : Decimal.IsCountable ⟨a, e⟩ ⟨b, f⟩ ↔
          Decimal.IsCountable ⟨a * Nat.pow 10 (e - min e f).toNat, min e f⟩
            ⟨b * Nat.pow 10 (f - min e f).toNat, min e f⟩ := by
        unfold Decimal.IsCountable
        rw [value_rescaled a (Int.min_le_left e f), value_rescaled b (Int.min_le_right e f)]
      have hden : 0 < b * Nat.pow 10 (f - min e f).toNat :=
        Nat.mul_pos hb (Nat.pow_pos (by decide))
      have hmoderate {r : Nat} := isModerate_remainder (r := r) step hfine (Int.min_le_right e f)
      rw [hgrid, isCountable_iff_of_grid hden]
      generalize a * Nat.pow 10 (e - min e f).toNat = num
      generalize b * Nat.pow 10 (f - min e f).toNat = den at hden hmoderate
      split
      · next hquotient =>
        by_cases hremainder : num % den = 0
        · refine .inl ⟨?_, hquotient, hremainder⟩
          rw [hremainder]
          rfl
        · have hpos := Nat.pos_of_ne_zero hremainder
          exact .inr ⟨.inl (ofDecimal_eq_nonzero (hmoderate hpos (Nat.mod_lt num hden)) hpos),
            fun h => hremainder h.2⟩
      · next hquotient => exact .inr ⟨.inr rfl, fun h => hquotient h.1⟩

/-! ## Reading -/

/-- The digits, the fraction and the exponent of a written number are found again. -/
theorem readDecimal?_written (w : Written) :
    Binary64.readDecimal? w.chars = some (w.digits, w.power) := by
  have isDigit {ds : List Char} (h : ∀ c ∈ ds, c.isDigit = true) :
      ∀ c ∈ ds, Unicode.isDigit c = true := fun c hc => Unicode.isDigit_of_isDigit (h c hc)
  have hwhole := isDigit w.isWhole.isDigit
  have hfraction := isDigit w.isDigit_fraction
  -- what stands behind the digits begins with a letter, if there is anything
  have htail : w.tail.takeWhile Unicode.isDigit = [] ∧ w.tail.dropWhile Unicode.isDigit = w.tail ∧
      Binary64.readFraction w.tail = ([], w.tail) ∧
      Binary64.readExponent? w.tail = some w.scale := by
    unfold Written.tail Written.scale
    cases hexponent : w.exponent with
    | none => exact ⟨rfl, rfl, rfl, rfl⟩
    | some p =>
      obtain ⟨hne, hes⟩ := w.isDigit_exponent p hexponent
      have hletter : ¬Unicode.isDigit 'e' = true := by decide +kernel
      refine ⟨List.takeWhile_cons_of_neg hletter, List.dropWhile_cons_of_neg hletter, rfl, ?_⟩
      have hall : p.2.all Unicode.isDigit = true := List.all_eq_true.2 (isDigit hes)
      have hempty : p.2.isEmpty = false := Bool.eq_false_iff.2 fun h => hne (List.isEmpty_iff.1 h)
      obtain ⟨below, es⟩ := p
      cases below <;>
        simp [Binary64.readExponent?, Binary64.readSign, hempty, hall]
  obtain ⟨htake, hdrop, hread, hscale⟩ := htail
  have hfilled : w.whole ++ w.fraction ≠ [] := List.append_ne_nil_of_left_ne_nil w.isWhole.ne_nil _
  exact Binary64.readDecimal?_parts hwhole hfraction hfilled htake hdrop hread hscale

/-- A written number is no word. -/
theorem asciiLower_written (w : Written) {c : Char} {cs : List Char} (hc : c.isDigit = false) :
    Binary64.asciiLower w.chars ≠ c :: cs := by
  intro h
  obtain ⟨d, ds, hchars, hd⟩ := w.exists_chars_eq_cons
  have hlower : d.toLower = d := by
    refine dif_neg fun hupper => ?_
    rw [Char.isDigit, Bool.and_eq_true, decide_eq_true_eq, decide_eq_true_eq] at hd
    exact absurd (UInt32.le_trans hupper.1 hd.2) (by decide)
  rw [hchars, Binary64.asciiLower, List.map_cons, hlower, List.cons.injEq] at h
  rw [h.1, hc] at hd
  cases hd

/-- The characters of a written number are no blanks and no underscores. -/
theorem kept_of_written (negative : Bool) (w : Written) :
    ∀ c ∈ (minusIf negative).toList ++ w.chars, Unicode.isBlank c = false ∧ c ≠ '_' := by
  have hmarks : ∀ c ∈ ['.', 'e', '+', '-'], Unicode.isBlank c = false ∧ c ≠ '_' := by
    have hall : ['.', 'e', '+', '-'].all (fun c => !Unicode.isBlank c && c != '_') = true := by
      decide +kernel
    simpa only [List.all_eq_true, Bool.and_eq_true, Bool.not_eq_true', bne_iff_ne] using hall
  intro c hc
  rcases List.mem_append.1 hc with hc | hc
  · cases negative with
    | false => cases hc
    | true => exact hmarks c (List.mem_singleton.1 hc ▸ by decide)
  · rcases w.isDigit_or_mem_marks c hc with hdigit | hmark
    · refine ⟨Unicode.isBlank_of_digit (Unicode.isDigit_of_isDigit hdigit), ?_⟩
      rintro rfl
      cases hdigit
    · exact hmarks c hmark

/-- A notation of a moderate decimal is moderate. -/
theorem isModerate_written {w : Written} {d : Decimal} (hw : w.IsOf d)
    (moderate : IsModerate d.digits d.exponent) : IsModerate w.digits w.power := by
  obtain ⟨hfine, hlarge⟩ := moderate
  have hpower := hw.power
  refine ⟨by omega, ?_⟩
  rcases Nat.eq_zero_or_pos w.digits with hzero | hpos
  · have hlength : (0 : Nat).repr.length = 1 := rfl
    have hlength' := length_repr_pos d.digits
    rw [hzero]
    unfold places at hlarge ⊢
    omega
  · -- the places are those of the value
    have hvalue : w.decimal.value = d.value := hw.value
    have hdigits : 0 < d.digits := by
      refine Nat.pos_of_ne_zero fun hzero => ?_
      have hpos' := value_pos hpos w.power
      rw [← Written.decimal, hvalue, Decimal.value, hzero] at hpos'
      simp at hpos'
    rw [places_eq_log hdigits] at hlarge
    rw [places_eq_log hpos, ← Written.decimal, hvalue]
    exact hlarge

/-- A written number is read as the decimal it denotes. -/
theorem read?_written {negative : Bool} {w : Written} {s : String}
    (hs : s.toList = (minusIf negative).toList ++ w.chars)
    (moderate : IsModerate w.digits w.power) : read? s = some (.finite w.digits w.power) := by
  have hkept := kept_of_written negative w
  have htrim : Text.trimChars s.toList = s.toList := by
    rw [hs]
    exact Text.trimChars_eq_self fun c hc => (hkept c hc).1
  have hfilter : s.toList.filter (· ≠ '_') = s.toList := by
    rw [hs]
    exact List.filter_eq_self.2 fun c hc => decide_eq_true (hkept c hc).2
  have hsign : (Binary64.readSign s.toList).2 = w.chars := by
    rw [hs]
    cases negative with
    | true => rfl
    | false =>
      obtain ⟨c, cs, hchars, hc⟩ := w.exists_chars_eq_cons
      show (Binary64.readSign w.chars).2 = w.chars
      rw [hchars]
      unfold Binary64.readSign
      split
      · next heq =>
        rw [(List.cons.inj heq).1] at hc
        cases hc
      · next heq =>
        rw [(List.cons.inj heq).1] at hc
        cases hc
      · rfl
  have hword {c : Char} {cs : List Char} (n : Nat) (hc : c.isDigit = false) :
      (Binary64.asciiLower w.chars).take (n + 1) ≠ c :: cs := by
    intro h
    cases hlower : Binary64.asciiLower w.chars with
    | nil => rw [hlower] at h; cases h
    | cons d ds =>
      rw [hlower, List.take_succ_cons, List.cons.injEq] at h
      exact asciiLower_written w hc (h.1 ▸ hlower)
  obtain ⟨hfine, hlarge⟩ := moderate
  unfold read?
  dsimp only
  rw [htrim, hfilter, hsign]
  rw [if_neg (fun h => h.elim (asciiLower_written w rfl) (asciiLower_written w rfl)),
    if_neg (fun h => hword 2 rfl h.1), if_neg (fun h => hword 3 rfl h.1), readDecimal?_written]
  exact if_pos ⟨hlarge.trans (by decide), hfine.trans' (by decide)⟩

end DecimalText

end Questionnaire
