import Questionnaire.Proofs.Answer.Amounts
import Questionnaire.Proofs.Answer.Readable
import Questionnaire.Proofs.Number.Order
import Questionnaire.Proofs.Number.Scanning

/-!
# Limits that are quoted

A number that breaks a bound is told the limit, without a fraction or with two places and in groups
of three.  A user who gives the quoted limit back is read, but not always accepted: a limit that is
not allowed itself is quoted as if it were, and a rounded one may lie on the wrong side.

## Main Definitions

* `Limits.quoted` - a limit as it is quoted
* `Limits.HoldsQuoted` - a bound holds where its limit is quoted
* `Limits.IsQuotable` - the quoted limit is read back as a number that the bound allows
* `Limits.IsFirstBroken` - the first bound that a number breaks

## Main Statements

* `Answer.readAmount?_grouped` - a decimal with its digits in groups is read
* `Limits.readAmount?_summary` - a finite limit is read back as the number nearest to the quotation
* `Limits.isQuotable_iff` - which limits can be given back
* `Limits.quoted_accepted_iff` - what a rejected number is told

## Design Notes

Reading back rounds a second time, to the format.  It keeps to the side of the limit on which the
quotation lies, since the limit is a number of the format itself, so only the case where the two
meet has to be told apart.
-/

namespace Questionnaire

/-! ## Digits of a rounded magnitude -/

/-- The digits of a rounded magnitude: some before the point, as many as asked for behind it, and
together they denote the rounded multiple. -/
theorem fixedDigits_spec (places : Nat) (x : Rat) :
    (fixedDigits places x).1 ≠ [] ∧ (fixedDigits places x).2.length = places ∧
      (∀ c ∈ (fixedDigits places x).1 ++ (fixedDigits places x).2, Unicode.isDigit c = true) ∧
      digitsValue ((fixedDigits places x).1 ++ (fixedDigits places x).2) =
        roundDiv (x.num.natAbs * 10 ^ places) x.den := by
  show _ ∧ _ ∧ _ ∧ _ = roundDiv (x.num.natAbs * Nat.pow 10 places) x.den
  unfold fixedDigits
  generalize roundDiv (x.num.natAbs * Nat.pow 10 places) x.den = n
  dsimp only
  generalize hds : Text.padStart '0' (places + 1) (Nat.toDigits 10 n) = ds
  have hlength : places < ds.length := by
    rw [← hds, Text.padStart, List.length_append, List.length_replicate]
    omega
  have hdigits : ∀ c ∈ ds, Unicode.isDigit c = true := by
    intro c hc
    rw [← hds] at hc
    exact Unicode.isDigit_of_isDigit
      (forall_isDigit_append (forall_isDigit_replicate _) (forall_isDigit_toDigits n) c hc)
  have hvalue : digitsValue ds = n := by
    rw [← hds, Text.padStart, digitsValue_append, digitsValue_replicate_zero, digitsValue_toDigits]
    omega
  rw [List.take_append_drop]
  refine ⟨fun hnil => ?_, ?_, hdigits, hvalue⟩
  · have hzero := congrArg List.length hnil
    rw [List.length_take, List.length_nil] at hzero
    omega
  · rw [List.length_drop]
    omega

namespace Json

/-- A number that is held as an integer where it is one has the same value. -/
theorem quantity?_ofWhole {x : Binary64} {p : ℚ} (h : x.toRat? = some p) :
    (ofWhole x).quantity? = some (.exact p) := by
  unfold ofWhole
  split
  · next n hn =>
    unfold Binary64.toInt? at hn
    rw [h] at hn
    dsimp only at hn
    split at hn
    · next hden =>
      cases hn
      rw [quantity?, Quantity.ofInt, Rat.coe_int_num_of_den_eq_one hden]
    · cases hn
  · cases x with
    | nan => cases h
    | infinity s => cases h
    | finite s m e =>
      rw [← Option.some.inj h]
      rfl

end Json

namespace Answer

/-- Without the marks that are left out, an answer without blanks is searched as it is. -/
theorem amountText_of_filled {answer : String} {word : List Char}
    (h : answer.toList.filter (!ignoredMarks.contains ·) = word)
    (filled : ∀ c ∈ word, Unicode.isBlank c = false) (given : word ≠ []) :
    (amountText answer).toList = word := by
  rw [amountText, Text.trim, Text.collapse, Text.without, String.toList_ofList,
    String.toList_ofList, String.toList_ofList, h]
  have htrim := Text.trimChars_collapseFrom Text.blank_nil Text.blank_nil filled given
  rwa [List.append_nil, List.nil_append] at htrim

/-- A decimal with its digits in groups is read as the number that its digits denote. -/
theorem readAmount?_grouped (answer : String) (negative : Bool) {whole fraction : List Char}
    (h : answer.toList = (minusIf negative).toList ++ (groupThousands whole ++ '.' :: fraction))
    (hwhole : whole ≠ []) (hfraction : fraction ≠ [])
    (digits : ∀ c ∈ whole ++ fraction, Unicode.isDigit c = true) :
    readAmount? answer = some (Json.ofWhole (Numeral.toBinary64 negative ⟨whole, fraction⟩)) := by
  have digitsWhole : ∀ c ∈ whole, Unicode.isDigit c = true := fun c hc =>
    digits c (List.mem_append_left _ hc)
  have digitsFraction : ∀ c ∈ fraction, Unicode.isDigit c = true := fun c hc =>
    digits c (List.mem_append_right _ hc)
  have hsign : (minusIf negative).toList = if negative then ['-'] else [] := by
    cases negative <;> rfl
  have hfilter : answer.toList.filter (!ignoredMarks.contains ·) =
      (if negative then ['-'] else []) ++ (whole ++ '.' :: fraction) := by
    have hkept : fraction.filter (!ignoredMarks.contains ·) = fraction :=
      List.filter_eq_self.2 fun c hc => by rw [not_mark_of_digit (digitsFraction c hc)]; rfl
    have hminus : (if negative then ['-'] else []).filter (!ignoredMarks.contains ·) =
        if negative then ['-'] else [] := by
      cases negative <;> decide
    obtain ⟨within, hgrouped⟩ := filter_groupThousands digitsWhole
    rw [h, hsign, List.filter_append, List.filter_append, hminus, filter_within within, hgrouped,
      List.filter_cons_of_pos (by decide), hkept]
  have filled : ∀ c ∈ (if negative then ['-'] else []) ++ (whole ++ '.' :: fraction),
      Unicode.isBlank c = false := by
    intro c hc
    rcases List.mem_append.1 hc with hc | hc
    · cases negative with
      | false => cases hc
      | true =>
        rw [List.mem_singleton.1 hc]
        decide
    · rcases List.mem_append.1 hc with hc | hc
      · exact Unicode.isBlank_of_digit (digitsWhole c hc)
      · rcases List.mem_cons.1 hc with rfl | hc
        · decide
        · exact Unicode.isBlank_of_digit (digitsFraction c hc)
  have hscan : Numeral.scan? (whole ++ '.' :: fraction) = some (⟨whole, fraction⟩, []) := by
    have hpointed : pointed fraction ++ [] = '.' :: fraction := by
      rw [pointed, if_neg (by simpa using hfraction), List.append_nil]
    rw [← hpointed]
    have ended : ∀ c ∈ ([] : List Char).head?, Unicode.isDigit c = false := by
      intro c hc
      cases hc
    exact Numeral.scan?_append hwhole digitsWhole digitsFraction ended
      fun hnil => absurd hnil hfraction
  obtain ⟨c, cs, rfl⟩ := List.exists_cons_of_ne_nil hwhole
  rw [readAmount?, amountText_of_filled hfilter filled (by simp)]
  rw [List.cons_append] at hscan ⊢
  rw [Numeral.search?_of_scan? negative (digitsWhole c List.mem_cons_self) hscan, Option.map_some]

end Answer

namespace Binary64

/-- Hundredths are read as the number that their value is rounded to. -/
theorem toRat?_ofDecimal_hundredths (negative : Bool) {n : Nat} (h : n < 10 ^ 200) :
    (ofDecimal negative n (-2)).toRat? =
      (ofRat ((if negative then -1 else 1) * (n / 100))).toRat? := by
  have hpositive : (ofDecimal false n (-2)).toRat? = (ofRat (n / 100)).toRat? := by
    rcases Nat.eq_zero_or_pos n with rfl | hn
    · rw [Nat.cast_zero, zero_div]
      rfl
    · have hratio : (0 : ℚ) < n / 100 := by positivity
      have hplaces : n.repr.length ≤ 200 := by
        rw [length_repr]
        exact (Nat.length_toDigits_le_iff (by decide) (by decide)).2 h
      have hread : ofDecimal false n (-2) = ofRatio false n 100 := by
        unfold ofDecimal
        dsimp only
        rw [if_neg hn.ne', if_neg (by omega), if_neg (by omega), if_neg (by decide)]
        rfl
      rw [hread, ofRat, decide_eq_false (not_lt.2 (Rat.num_pos.2 hratio).le)]
      congr 1
      refine ofRatio_congr false (by decide) (Rat.den_pos _) ?_
      rw [natAbs_div_den hratio]
      norm_num
  cases negative with
  | false => rw [hpositive, if_neg Bool.false_ne_true, one_mul]
  | true => rw [ofDecimal_true, toRat?_neg, hpositive, if_pos rfl, neg_one_mul, toRat?_ofRat_neg]

/-- A number with a fraction has places behind the binary point, so it is below the power of two
where they end. -/
theorem magnitude_lt_of_toInt?_eq_none {s : Bool} {m : Nat} {e : Int}
    (canonical : IsCanonical (.finite s m e)) (h : (finite s m e).toInt? = none) :
    0 < m ∧ magnitude m e < 2 ^ 53 := by
  have hwhole {n : Nat} (hn : magnitude m e = n) : False := by
    have hden : (if s then -magnitude m e else magnitude m e).den = 1 := by
      rw [hn]
      cases s <;> simp
    simp [toInt?, toRat?, hden] at h
  have hm : 0 < m := by
    refine Nat.pos_of_ne_zero fun hzero => hwhole (n := 0) ?_
    rw [hzero, magnitude, Nat.cast_zero, zero_mul]
  refine ⟨hm, ?_⟩
  by_cases he : 0 ≤ e
  · obtain ⟨k, rfl⟩ := Int.eq_ofNat_of_zero_le he
    refine (hwhole (n := m * 2 ^ k) ?_).elim
    rw [magnitude]
    push_cast
    rw [zpow_natCast]
  · have hmq : (m : ℚ) < 2 ^ 53 := by exact_mod_cast canonical.1
    refine lt_of_le_of_lt (mul_le_of_le_one_right (Nat.cast_nonneg m) ?_) hmq
    exact zpow_le_one_of_nonpos₀ (by norm_num) (by omega)

/-- A rational up to the largest magnitude is rounded to a finite number. -/
theorem exists_toRat?_ofRat {r : ℚ} (h : |r| ≤ largest) : ∃ p, (ofRat r).toRat? = some p := by
  have hratio : (r.num.natAbs : ℚ) / r.den = |r| := by
    rw [Rat.abs_def, Rat.divInt_eq_div]
    rfl
  obtain ⟨m, e, hround⟩ := exists_finite_ofRatio (r.num < 0) r.den_pos (hratio.trans_le h)
  exact ⟨_, by rw [ofRat, hround, toRat?]⟩

end Binary64

namespace Limits

/-! ## The quoted limit -/

/-- A limit as it is quoted: rounded to two places, a tie going to the even digit. -/
def quoted (q : ℚ) : ℚ := (if q < 0 then -1 else 1) * (roundDiv (q.num.natAbs * 100) q.den / 100)

/-- A whole limit is quoted as it is. -/
theorem quoted_int (n : Int) : quoted n = n := by
  rw [quoted, Rat.num_intCast, Rat.den_intCast, Binary64.roundDiv_one, Nat.cast_mul,
    Nat.cast_natAbs, Int.cast_abs, Nat.cast_ofNat, mul_div_cancel_right₀ _ (by norm_num)]
  split
  · next h => rw [abs_of_neg h, neg_one_mul, neg_neg]
  · next h => rw [abs_of_nonneg (not_lt.1 h), one_mul]

/-- A limit with a fraction is quoted with the sign of its number, and its magnitude in
hundredths. -/
theorem quoted_fraction {s : Bool} {m : Nat} {e : Int} (hm : 0 < m) :
    quoted (if s then -Binary64.magnitude m e else Binary64.magnitude m e) =
      (if s then -1 else 1) * (roundDiv ((Binary64.magnitude m e).num.natAbs * 100)
        (Binary64.magnitude m e).den / 100) := by
  have hpos := Binary64.toRat_pos hm e
  unfold quoted
  cases s with
  | false => simp [not_lt.2 hpos.le]
  | true => simp [hpos]

/-- A limit with a fraction is read back as the number nearest to what is quoted. -/
theorem readAmount?_renderFixed {s : Bool} {m : Nat} {e : Int}
    (canonical : Binary64.IsCanonical (.finite s m e))
    (fraction : (Binary64.finite s m e).toInt? = none) :
    ∃ n p, Answer.readAmount? ((Binary64.finite s m e).renderFixed 2) = some n ∧
      n.quantity? = some (.exact p) ∧
      (Binary64.ofRat (quoted (if s then -Binary64.magnitude m e
        else Binary64.magnitude m e))).toRat? = some p := by
  obtain ⟨hm, hlt⟩ := Binary64.magnitude_lt_of_toInt?_eq_none canonical fraction
  have hpos := Binary64.toRat_pos hm e
  obtain ⟨hwhole, hlength, hdigits, hvalue⟩ := fixedDigits_spec 2 (Binary64.magnitude m e)
  rw [quoted_fraction hm]
  -- the hundredths are far below the largest number
  have hscaled : roundDiv ((Binary64.magnitude m e).num.natAbs * 100)
      (Binary64.magnitude m e).den ≤ 2 ^ 53 * 100 := by
    refine roundDiv_le (Binary64.magnitude m e).den_pos ?_
    push_cast
    rw [mul_div_right_comm, Binary64.natAbs_div_den hpos]
    linarith
  have hread := Answer.readAmount?_grouped ((Binary64.finite s m e).renderFixed 2) s
    (by simp [Binary64.renderFixed]) hwhole
    (List.ne_nil_of_length_pos (by omega)) hdigits
  rw [Numeral.toBinary64, hvalue, hlength] at hread
  generalize roundDiv ((Binary64.magnitude m e).num.natAbs * 100)
    (Binary64.magnitude m e).den = n at hread hscaled
  have hrange : |(if s then -1 else 1) * ((n : ℚ) / 100)| ≤ Binary64.largest := by
    have hn : (n : ℚ) / 100 ≤ 2 ^ 53 := by
      rw [div_le_iff₀ (by norm_num)]
      exact_mod_cast hscaled
    have habs : |(if s then -1 else 1) * ((n : ℚ) / 100)| = n / 100 := by
      have hnonneg : (0 : ℚ) ≤ n / 100 := by positivity
      cases s <;> simp [abs_of_nonneg hnonneg]
    rw [habs]
    calc (n : ℚ) / 100 ≤ 2 ^ 53 := hn
      _ ≤ 2 ^ 1023 := pow_le_pow_right₀ (by norm_num) (by norm_num)
      _ ≤ Binary64.largest := Binary64.two_pow_le_largest
  obtain ⟨p, hp⟩ := Binary64.exists_toRat?_ofRat hrange
  refine ⟨_, p, hread, Json.quantity?_ofWhole ?_, hp⟩
  rw [← hp]
  refine Binary64.toRat?_ofDecimal_hundredths s (hscaled.trans_lt ?_)
  norm_num

/-- A finite limit is read back as the number nearest to what is quoted. -/
theorem readAmount?_summary {limit : Binary64} (canonical : limit.IsCanonical) {q : ℚ}
    (hq : limit.toRat? = some q) :
    ∃ n p, Answer.readAmount? (Json.float limit).summary = some n ∧
      n.quantity? = some (.exact p) ∧ (Binary64.ofRat (quoted q)).toRat? = some p := by
  rw [Json.summary]
  cases hint : limit.toInt? with
  | some n =>
    have hn : q = n := by
      unfold Binary64.toInt? at hint
      rw [hq] at hint
      dsimp only at hint
      split at hint
      · next hden =>
        cases hint
        exact (Rat.coe_int_num_of_den_eq_one hden).symm
      · cases hint
    have hread := (Answer.readAmount?_spelling_iff n).2.2
      (Binary64.isExact_of_toInt? canonical hint)
    subst hn
    refine ⟨.int n, n, hread, rfl, ?_⟩
    rw [quoted_int]
    exact Binary64.toRat?_ofRat_self canonical hq
  | none =>
    cases limit with
    | nan => cases hq
    | infinity s => cases hq
    | finite s m e =>
      rw [← Option.some.inj hq]
      exact readAmount?_renderFixed canonical hint

/-! ## Bounds at their quoted limits -/

/-- What is quoted is read as the limit again: no number of the format is nearer to it. -/
def ReadsBack (q : ℚ) : Prop := (Binary64.ofRat (quoted q)).toRat? = some q

/-- A bound holds at its limit as it is quoted.  Where the limit itself is allowed, it is quoted on
the side that is allowed, or reads back.  Where the limit is not allowed, what is quoted lies beyond
it, and is not so near that it reads back. -/
def HoldsQuoted (b : Bound) (q : ℚ) : Prop :=
  match b with
  | .min => q ≤ quoted q ∨ ReadsBack q
  | .gte => q ≤ quoted q ∨ ReadsBack q
  | .gt => q < quoted q ∧ ¬ ReadsBack q
  | .max => quoted q ≤ q ∨ ReadsBack q
  | .lte => quoted q ≤ q ∨ ReadsBack q
  | .lt => quoted q < q ∧ ¬ ReadsBack q
  | .step => True

theorem breaks_exact (b : Bound) (p q : ℚ) : breaks b (.exact p) (.exact q) = false ↔
    match b with
    | .min => q ≤ p
    | .gte => q ≤ p
    | .gt => q < p
    | .max => p ≤ q
    | .lte => p ≤ q
    | .lt => p < q
    | .step => True := by
  have hlt (p q : ℚ) : (Quantity.exact p).lt (.exact q) = false ↔ q ≤ p := by
    rcases lt_trichotomy p q with h | h | h
    · simp [Quantity.lt, Quantity.compare?, h]
    · simp [Quantity.lt, Quantity.compare?, h]
    · simp [Quantity.lt, Quantity.compare?, h.not_gt, h.ne', h.le]
  have hle (p q : ℚ) : (Quantity.exact p).le (.exact q) = false ↔ q < p := by
    rcases lt_trichotomy p q with h | h | h
    · simp [Quantity.le, Quantity.lt, Quantity.compare?, h, h.le]
    · simp [Quantity.le, Quantity.eq, Quantity.compare?, h]
    · simp [Quantity.le, Quantity.lt, Quantity.eq, Quantity.compare?, h, h.not_gt, h.ne']
  cases b <;> first | exact hlt _ _ | exact hle _ _ | simp [breaks]

/-- The number nearest to what is quoted respects a bound exactly if the bound holds there. -/
theorem breaks_quoted_iff {limit : Binary64} (canonical : limit.IsCanonical) {p q : ℚ}
    (hq : limit.toRat? = some q) (hp : (Binary64.ofRat (quoted q)).toRat? = some p) (b : Bound) :
    breaks b (.exact p) (.exact q) = false ↔ HoldsQuoted b q := by
  have hreads : ReadsBack q ↔ p = q := by rw [ReadsBack, hp, Option.some.injEq]
  have above (h : q ≤ quoted q) : q ≤ p := Binary64.le_of_ofRat canonical hq h hp
  have below (h : quoted q ≤ q) : p ≤ q := Binary64.of_ofRat_le canonical hq h hp
  have atLeast : q ≤ p ↔ q ≤ quoted q ∨ ReadsBack q := by
    rw [hreads]
    constructor
    · intro h
      by_cases hle : q ≤ quoted q
      · exact .inl hle
      · exact .inr (le_antisymm (below (not_le.1 hle).le) h)
    · rintro (h | h)
      · exact above h
      · exact h.ge
  have atMost : p ≤ q ↔ quoted q ≤ q ∨ ReadsBack q := by
    rw [hreads]
    constructor
    · intro h
      by_cases hle : quoted q ≤ q
      · exact .inl hle
      · exact .inr (le_antisymm h (above (not_le.1 hle).le))
    · rintro (h | h)
      · exact below h
      · exact h.le
  rw [breaks_exact]
  cases b with
  | min | gte => exact atLeast
  | max | lte => exact atMost
  | gt =>
    show q < p ↔ q < quoted q ∧ ¬ ReadsBack q
    rw [← not_le, atMost, not_or, not_le]
  | lt =>
    show p < q ↔ quoted q < q ∧ ¬ ReadsBack q
    rw [← not_le, atLeast, not_or, not_le]
  | step => rfl

/-- A limit that is quoted is read back as a number that its bound allows. -/
def IsQuotable (b : Bound) (limit : Binary64) : Prop :=
  ∃ n x, Answer.readAmount? (Json.float limit).summary = some n ∧ n.quantity? = some x ∧
    breaks b x limit.quantity = false

/-- A limit is quotable exactly if it is finite and the bound holds where it is quoted. -/
theorem isQuotable_iff {limit : Binary64} (canonical : limit.IsCanonical) (b : Bound) :
    IsQuotable b limit ↔ ∃ q, limit.toRat? = some q ∧ HoldsQuoted b q := by
  cases hq : limit.toRat? with
  | none =>
    have hnone : Answer.readAmount? (Json.float limit).summary = none := by
      cases limit with
      | nan => decide +kernel
      | infinity s => cases s <;> decide +kernel
      | finite s m e => cases hq
    refine iff_of_false ?_ (by simp)
    rintro ⟨n, x, hread, -⟩
    rw [hnone] at hread
    cases hread
  | some q =>
    obtain ⟨n, p, hread, hquantity, hp⟩ := readAmount?_summary canonical hq
    have hlimit : limit.quantity = .exact q := by
      cases limit with
      | nan => cases hq
      | infinity s => cases hq
      | finite s m e =>
        rw [← Option.some.inj hq]
        rfl
    have hbreaks := breaks_quoted_iff canonical hq hp b
    constructor
    · rintro ⟨n', x, hread', hquantity', hkept⟩
      rw [hread, Option.some.injEq] at hread'
      rw [← hread', hquantity, Option.some.injEq] at hquantity'
      rw [← hquantity', hlimit] at hkept
      exact ⟨q, rfl, hbreaks.1 hkept⟩
    · rintro ⟨q', ⟨⟩, holds⟩
      refine ⟨n, .exact p, hread, hquantity, ?_⟩
      rw [hlimit]
      exact hbreaks.2 holds

/-! ## Rejections -/

/-- A bound is the first of some that a number breaks. -/
structure IsFirstBroken (l : Limits) (x : Quantity) (bounds : List Bound) (b : Bound)
    (limit : Binary64) : Prop where
  /-- It is one of the bounds. -/
  checked : b ∈ bounds
  /-- It has the limit. -/
  found : l.get? b = some limit
  /-- The number breaks it. -/
  broken : breaks b x limit.quantity = true
  /-- The number breaks none of the bounds before it. -/
  before : ∀ b' ∈ bounds.takeWhile (· ≠ b), ∀ y ∈ l.get? b', breaks b' x y.quantity = false

variable {l : Limits} {v value : Json} {w : Violation}

/-- A bound that is not broken comes before the first that is. -/
theorem IsFirstBroken.cons {x : Quantity} {bounds : List Bound} {b c : Bound} {limit : Binary64}
    (first : IsFirstBroken l x bounds b limit)
    (kept : ∀ y ∈ l.get? c, breaks c x y.quantity = false) :
    IsFirstBroken l x (c :: bounds) b limit := by
  refine ⟨List.mem_cons_of_mem c first.checked, first.found, first.broken, ?_⟩
  by_cases h : c = b
  · rw [List.takeWhile_cons_of_neg (by simpa using h)]
    exact nofun
  · rw [List.takeWhile_cons_of_pos (by simpa using h)]
    exact List.forall_mem_cons.2 ⟨kept, first.before⟩

/-- What is reported of some bounds is a violation of the first that is broken. -/
theorem exists_isFirstBroken {bounds : List Bound}
    (h : l.firstBroken? value bounds = .ok (some w)) :
    ∃ b limit x, value.quantity? = some x ∧ IsFirstBroken l x bounds b limit ∧
      w = violationOf b limit := by
  induction bounds with
  | nil => cases h
  | cons c rest ih =>
    unfold firstBroken? at h
    split at h
    · next hnone =>
      obtain ⟨b, limit, x, hx, first, hw⟩ := ih h
      refine ⟨b, limit, x, hx, first.cons fun y hy => ?_, hw⟩
      rw [hnone] at hy
      cases hy
    · next limit hlimit =>
      split at h
      · cases h
      · next x hx =>
        split at h
        · next hbroken =>
          cases h
          refine ⟨c, limit, x, hx, ⟨List.mem_cons_self, hlimit, hbroken, ?_⟩, rfl⟩
          rw [List.takeWhile_cons_of_neg (by simp)]
          intro b' hb'
          cases hb'
        · next hkept =>
          obtain ⟨b, limit', x', hx', first, hw⟩ := ih h
          rw [hx, Option.some.injEq] at hx'
          subst hx'
          refine ⟨b, limit', x, hx, first.cons fun y hy => ?_, hw⟩
          rw [hlimit, Option.mem_some_iff] at hy
          rw [← hy]
          exact Bool.eq_false_iff.2 hkept

/-- A violation that is no violation of the step is one of a bound. -/
theorem exists_isFirstBroken_of_violation? (h : l.violation? value = .ok (some w))
    (hcode : w.code = "min" ∨ w.code = "max") :
    ∃ b limit x, value.quantity? = some x ∧ IsFirstBroken l x checkOrder b limit ∧
      w = violationOf b limit := by
  obtain ⟨broken, hbroken, h⟩ := Outcome.bind_eq_ok_iff.1 h
  cases broken with
  | some w' =>
    cases h
    exact exists_isFirstBroken hbroken
  | none =>
    dsimp only at h
    split at h
    · cases h
    · split at h
      · cases h
      · obtain ⟨d, -, h⟩ := Outcome.bind_eq_ok_iff.1 h
        obtain ⟨onStep, -, h⟩ := Outcome.bind_eq_ok_iff.1 h
        split at h
        · cases h
        · cases h
          have hstep : "step" = "min" ∨ "step" = "max" := hcode
          exact absurd hstep (by decide)

/-- A number that is rejected for a bound is told the limit of the first bound that it breaks.  The
limit that is quoted is read back as a number that this bound allows exactly if the limit is finite
and the bound holds where it is quoted. -/
theorem quoted_accepted_iff (wellFormed : v.WellFormed) (hl : ofJson v = .ok l)
    (h : l.violation? value = .ok (some w)) (hcode : w.code = "min" ∨ w.code = "max") :
    ∃ b limit x, value.quantity? = some x ∧ IsFirstBroken l x checkOrder b limit ∧
      w = violationOf b limit ∧ w.notice.2 = [("limit", .str (Json.float limit).summary)] ∧
      (IsQuotable b limit ↔ ∃ q, limit.toRat? = some q ∧ HoldsQuoted b q) := by
  obtain ⟨b, limit, x, hx, first, hw⟩ := exists_isFirstBroken_of_violation? h hcode
  have canonical := isCanonical_ofJson wellFormed hl b limit first.found
  refine ⟨b, limit, x, hx, first, hw, ?_, isQuotable_iff canonical b⟩
  rw [hw]
  cases b <;> rfl

/-- A tenth is quoted with two places and reads back, although the number of the format is a little
greater. -/
theorem quoted_accepted_tenth : ∃ l w limit, ofJson (.str "min=0.1") = .ok l ∧
    l.violation? (.int 0) = .ok (some w) ∧ w.code = "min" ∧
    w.notice.2 = [("limit", .str "0.10")] ∧ w = .belowMin limit ∧ IsQuotable .min limit := by
  have evaluated : Outcome.Gives (ofJson (.str "min=0.1")) fun l =>
      l = { min := some (.ofDecimal false 1 (-1)) } ∧
        Outcome.Gives (l.violation? (.int 0)) fun w => (w.map Violation.code) = some "min" := by
    decide +kernel
  obtain ⟨l, hl, rfl, w?, hw, hmap⟩ := evaluated
  obtain ⟨w, rfl, hcode⟩ := Option.map_eq_some_iff.1 hmap
  obtain ⟨b, limit, x, -, first, rfl, hnotice, quotable⟩ :=
    quoted_accepted_iff (.str _) hl hw (.inl hcode)
  have hb : b = .min ∧ limit = .ofDecimal false 1 (-1) := by
    have hlimit := first.found
    cases b <;> cases hlimit
    exact ⟨rfl, rfl⟩
  obtain ⟨rfl, rfl⟩ := hb
  have htext : (Json.float (.ofDecimal false 1 (-1))).summary = "0.10" := by decide +kernel
  have reads : (Binary64.ofRat (quoted (3602879701896397 / 36028797018963968))).toRat? =
      some (3602879701896397 / 36028797018963968) := by
    decide +kernel
  have hlimit : (Binary64.ofDecimal false 1 (-1)).toRat? =
      some (3602879701896397 / 36028797018963968) := by
    decide +kernel
  exact ⟨_, _, _, hl, hw, hcode, htext ▸ hnotice, rfl, quotable.2 ⟨_, hlimit, .inr reads⟩⟩

/-- A limit of three places is quoted below itself, where the bound rejects what is read back. -/
theorem quoted_rejected_thousandth : ¬ ∀ (v value : Json) (l : Limits) (w : Violation),
    v.WellFormed → ofJson v = .ok l → l.violation? value = .ok (some w) →
    (w.code = "min" ∨ w.code = "max") →
    ∃ b limit x, value.quantity? = some x ∧ IsFirstBroken l x checkOrder b limit ∧
      w.notice.2 = [("limit", .str (Json.float limit).summary)] ∧ IsQuotable b limit := by
  intro h
  have evaluated : Outcome.Gives (ofJson (.str "min=0.124")) fun l =>
      l = { min := some (.ofDecimal false 124 (-3)) } ∧
        Outcome.Gives (l.violation? (.float (.ofDecimal false 12 (-2)))) fun w =>
          (w.map Violation.code) = some "min" := by
    decide +kernel
  obtain ⟨l, hl, rfl, w?, hw, hmap⟩ := evaluated
  obtain ⟨w, rfl, hcode⟩ := Option.map_eq_some_iff.1 hmap
  obtain ⟨b, limit, x, -, first, -, quotable⟩ := h _ _ _ w (.str _) hl hw (.inl hcode)
  have hb : b = .min ∧ limit = .ofDecimal false 124 (-3) := by
    have hlimit := first.found
    cases b <;> cases hlimit
    exact ⟨rfl, rfl⟩
  obtain ⟨rfl, rfl⟩ := hb
  obtain ⟨q, hq, holds⟩ := (isQuotable_iff (by decide +kernel) .min).1 quotable
  have hlimit : (Binary64.ofDecimal false 124 (-3)).toRat? =
      some (1116892707587883 / 9007199254740992) := by
    decide +kernel
  rw [hlimit, Option.some.injEq] at hq
  subst hq
  rcases holds with hle | reads
  · exact absurd hle (by decide +kernel)
  · exact absurd reads (by unfold ReadsBack; decide +kernel)

end Limits

end Questionnaire
