import Questionnaire.Json.Literal
import Questionnaire.Proofs.Number.ReadBack

/-!
# Numbers in writing

However a magnitude is laid out, its notation is a row of digits, a fraction and an exponent, and
these denote it.  A reader that takes such notations apart therefore reads every written number.

## Main Definitions

* `Written` - a magnitude in writing
* `Written.digits`, `Written.power` - the decimal it denotes
* `Written.ofNat`, `Written.zero` - a natural and the floating point zero in writing

## Main Statements

* `Decimal.exists_written` - a decimal under the layout of floating point numbers
* `Binary64.exists_written` - the notation of a finite number
-/

namespace Questionnaire

/-! ## Rows of digits -/

theorem takeWhile_isDigit_append {ds tail : List Char} (hds : ∀ c ∈ ds, c.isDigit = true)
    (htail : tail.takeWhile Char.isDigit = []) : (ds ++ tail).takeWhile Char.isDigit = ds := by
  rw [List.takeWhile_append_of_pos hds, htail, List.append_nil]

theorem forall_isDigit_replicate (k : Nat) : ∀ c ∈ List.replicate k '0', c.isDigit = true := by
  intro c hc
  rw [(List.mem_replicate.1 hc).2]
  rfl

theorem forall_isDigit_append {cs ds : List Char} (hcs : ∀ c ∈ cs, c.isDigit = true)
    (hds : ∀ c ∈ ds, c.isDigit = true) : ∀ c ∈ cs ++ ds, c.isDigit = true := by
  intro c hc
  rcases List.mem_append.1 hc with hc | hc
  · exact hcs c hc
  · exact hds c hc

theorem forall_isDigit_toDigits (n : Nat) : ∀ c ∈ Nat.toDigits 10 n, c.isDigit = true :=
  fun _ => isDigit_of_mem_toDigits

/-- The digits before the point of a written number. -/
structure IsWhole (ws : List Char) : Prop where
  /-- There are some. -/
  ne_nil : ws ≠ []
  /-- All of them are digits. -/
  isDigit : ∀ c ∈ ws, c.isDigit = true
  /-- Only zero begins with a zero. -/
  leading : ws.head? = some '0' → ws = ['0']

theorem isWhole_zero : IsWhole ['0'] where
  ne_nil := by decide
  isDigit c hc := by
    rw [List.mem_singleton.1 hc]
    rfl
  leading := fun _ => rfl

theorem isWhole_toDigits (n : Nat) : IsWhole (Nat.toDigits 10 n) where
  ne_nil := Nat.toDigits_ne_nil
  isDigit := forall_isDigit_toDigits n
  leading h := by
    rcases Nat.eq_zero_or_pos n with rfl | hn
    · rfl
    · cases hdigits : Nat.toDigits 10 n with
      | nil => exact absurd hdigits Nat.toDigits_ne_nil
      | cons c cs =>
        rw [hdigits, List.head?_cons, Option.some.injEq] at h
        exact absurd h (head_toDigits_ne_zero hn hdigits)

/-- A row of digits that begins like a positive natural has no zero in front. -/
theorem isWhole_of_prefix {n : Nat} (hn : 0 < n) {ws : List Char} (tail : List Char)
    (hne : ws ≠ []) (h : ∃ more, ws ++ more = Nat.toDigits 10 n ++ tail)
    (hds : ∀ c ∈ ws, c.isDigit = true) : IsWhole ws where
  ne_nil := hne
  isDigit := hds
  leading hzero := by
    obtain ⟨more, h⟩ := h
    cases hdigits : Nat.toDigits 10 n with
    | nil => exact absurd hdigits Nat.toDigits_ne_nil
    | cons c cs =>
      cases ws with
      | nil => exact absurd rfl hne
      | cons w ws =>
        rw [hdigits, List.cons_append, List.cons_append, List.cons.injEq] at h
        rw [List.head?_cons, Option.some.injEq] at hzero
        exact absurd (h.1.symm.trans hzero) (head_toDigits_ne_zero hn hdigits)

theorem IsWhole.exists_eq_cons {ws : List Char} (hws : IsWhole ws) :
    ∃ c cs, ws = c :: cs ∧ c.isDigit = true := by
  cases ws with
  | nil => exact absurd rfl hws.ne_nil
  | cons c cs => exact ⟨c, cs, rfl, hws.isDigit c List.mem_cons_self⟩

theorem IsWhole.isEmpty {ws : List Char} (hws : IsWhole ws) : ws.isEmpty = false := by
  obtain ⟨c, cs, rfl, -⟩ := hws.exists_eq_cons
  rfl

/-! ## Notations -/

/-- The digits after the point of a written number, with the point. -/
def pointed (fs : List Char) : List Char := if fs.isEmpty then [] else '.' :: fs

/-- A magnitude in writing. -/
structure Written where
  /-- The digits before the point. -/
  whole : List Char
  /-- The digits after the point, none without a point. -/
  fraction : List Char
  /-- Whether the exponent is below zero, and its digits. -/
  exponent : Option (Bool × List Char)
  /-- No zero stands in front. -/
  isWhole : IsWhole whole
  /-- The fraction is made of digits. -/
  isDigit_fraction : ∀ c ∈ fraction, c.isDigit = true
  /-- The exponent is made of digits. -/
  isDigit_exponent : ∀ p ∈ exponent, p.2 ≠ [] ∧ ∀ c ∈ p.2, c.isDigit = true

namespace Written

/-- The exponent with its letter and its sign. -/
def tail (w : Written) : List Char :=
  match w.exponent with
  | none => []
  | some (below, es) => 'e' :: (if below then '-' else '+') :: es

/-- The notation. -/
def chars (w : Written) : List Char := w.whole ++ (pointed w.fraction ++ w.tail)

/-- The value of the exponent. -/
def scale (w : Written) : Int :=
  match w.exponent with
  | none => 0
  | some (below, es) => if below then -(digitsValue es : Int) else digitsValue es

/-- The digits before and after the point as one natural. -/
def digits (w : Written) : Nat := digitsValue (w.whole ++ w.fraction)

/-- The power of ten that scales the digits. -/
def power (w : Written) : Int := w.scale - w.fraction.length

/-- The decimal that is denoted. -/
def decimal (w : Written) : Decimal := ⟨w.digits, w.power⟩

/-- A fraction or an exponent tells a floating point number from an integer. -/
def IsFloat (w : Written) : Prop := w.fraction ≠ [] ∨ w.exponent ≠ none

theorem exists_chars_eq_cons (w : Written) :
    ∃ c cs, w.chars = c :: cs ∧ c.isDigit = true := by
  obtain ⟨c, cs, hwhole, hc⟩ := w.isWhole.exists_eq_cons
  exact ⟨c, _, by rw [chars, hwhole, List.cons_append], hc⟩

/-- The characters of a notation are digits and the four marks between them. -/
theorem isDigit_or_mem_marks (w : Written) :
    ∀ c ∈ w.chars, c.isDigit = true ∨ c ∈ ['.', 'e', '+', '-'] := by
  intro c hc
  rw [chars, List.mem_append, List.mem_append] at hc
  rcases hc with hc | hc | hc
  · exact .inl (w.isWhole.isDigit c hc)
  · unfold pointed at hc
    split at hc
    · cases hc
    · rcases List.mem_cons.1 hc with rfl | hc
      · exact .inr (by decide)
      · exact .inl (w.isDigit_fraction c hc)
  · unfold tail at hc
    split at hc
    · cases hc
    · rename_i below es hexponent
      rcases List.mem_cons.1 hc with rfl | hc
      · exact .inr (by decide)
      rcases List.mem_cons.1 hc with rfl | hc
      · exact .inr (by cases below <;> decide)
      · exact .inl ((w.isDigit_exponent _ hexponent).2 c hc)

/-- A natural in writing. -/
def ofNat (n : Nat) : Written where
  whole := Nat.toDigits 10 n
  fraction := []
  exponent := none
  isWhole := isWhole_toDigits n
  isDigit_fraction := nofun
  isDigit_exponent := nofun

theorem chars_ofNat (n : Nat) : (ofNat n).chars = n.repr.toList := by
  rw [Nat.toList_repr]
  exact List.append_nil _

theorem decimal_ofNat (n : Nat) : (ofNat n).decimal = ⟨n, 0⟩ := by
  have hdigits : (ofNat n).digits = n :=
    (congrArg digitsValue (List.append_nil _)).trans (digitsValue_toDigits n)
  rw [decimal, hdigits]
  rfl

/-- The floating point zero in writing. -/
def zero : Written where
  whole := ['0']
  fraction := ['0']
  exponent := none
  isWhole := isWhole_zero
  isDigit_fraction := by simp
  isDigit_exponent := nofun

end Written

/-- A written integer: its sign and its digits. -/
theorem toList_renderInt (n : Int) :
    (renderInt n).toList = (minusIf (n < 0)).toList ++ (Written.ofNat n.natAbs).chars := by
  rw [renderInt, String.toList_append, Written.chars_ofNat]

/-! ## Decimals in writing -/

/-- A notation is one of a decimal: it denotes the same value, and it ends in the same place, or in
the one that always stands after a point. -/
structure Written.IsOf (w : Written) (d : Decimal) : Prop where
  /-- It is the notation of a floating point number. -/
  isFloat : w.IsFloat
  /-- It denotes the value. -/
  value : w.decimal.value = d.value
  /-- It ends in the last place of the decimal, or in the first after the point. -/
  power : w.power = d.exponent ∨ w.power = -1

/-- A decimal whose point stands before its digits. -/
theorem exists_written_pointBefore (n k : Nat) :
    ∃ w : Written, '0' :: '.' :: (List.replicate k '0' ++ Nat.toDigits 10 n) = w.chars ∧
      w.IsOf ⟨n, -(k + (Nat.toDigits 10 n).length : Int)⟩ := by
  have hne : List.replicate k '0' ++ Nat.toDigits 10 n ≠ [] := by
    intro h
    exact Nat.toDigits_ne_nil (List.append_eq_nil_iff.1 h).2
  let w : Written := {
    whole := ['0']
    fraction := List.replicate k '0' ++ Nat.toDigits 10 n
    exponent := none
    isWhole := isWhole_zero
    isDigit_fraction :=
      forall_isDigit_append (forall_isDigit_replicate k) (forall_isDigit_toDigits n)
    isDigit_exponent := nofun }
  have hchars : w.chars = '0' :: '.' :: (List.replicate k '0' ++ Nat.toDigits 10 n) := by
    simp [w, Written.chars, Written.tail, pointed]
  have hdigits : w.digits = n := by
    show digitsValue (['0'] ++ (List.replicate k '0' ++ Nat.toDigits 10 n)) = n
    rw [digitsValue_append, digitsValue_append, digitsValue_replicate_zero, digitsValue_toDigits]
    simp [digitsValue, Unicode.digit?, Unicode.zeros]
  have hpower : w.power = -(k + (Nat.toDigits 10 n).length : Int) := by
    show (0 : Int) - (List.replicate k '0' ++ Nat.toDigits 10 n).length = _
    rw [List.length_append, List.length_replicate]
    omega
  refine ⟨w, hchars.symm, .inl hne, ?_, .inl hpower⟩
  rw [Written.decimal, hdigits, hpower]

/-- A decimal all of whose digits stand before its point, with zeros to fill the gap. -/
theorem exists_written_pointAfter {n : Nat} (hn : 0 < n) (k : Nat) :
    ∃ w : Written, Nat.toDigits 10 n ++ List.replicate k '0' ++ ['.', '0'] = w.chars ∧
      w.IsOf ⟨n, k⟩ := by
  have hws : IsWhole (Nat.toDigits 10 n ++ List.replicate k '0') := by
    refine isWhole_of_prefix hn (List.replicate k '0') ?_ ⟨[], List.append_nil _⟩ ?_
    · intro h
      exact Nat.toDigits_ne_nil (List.append_eq_nil_iff.1 h).1
    · exact forall_isDigit_append (forall_isDigit_toDigits n) (forall_isDigit_replicate k)
  let w : Written := {
    whole := Nat.toDigits 10 n ++ List.replicate k '0'
    fraction := ['0']
    exponent := none
    isWhole := hws
    isDigit_fraction := by simp
    isDigit_exponent := nofun }
  have hdigits : w.digits = n * 10 ^ (k + 1) := by
    show digitsValue (Nat.toDigits 10 n ++ List.replicate k '0' ++ ['0']) = _
    rw [digitsValue_append, digitsValue_append, digitsValue_replicate_zero, digitsValue_toDigits,
      List.length_replicate]
    simp [digitsValue, Unicode.digit?, Unicode.zeros, pow_succ, Nat.mul_assoc]
  refine ⟨w, rfl, .inl (List.cons_ne_nil '0' []), ?_, .inr rfl⟩
  -- the zero behind the point is one more power of ten
  have hpower : w.power = -1 := rfl
  rw [Written.decimal, hdigits, hpower, Decimal.value, Decimal.value]
  push_cast
  rw [mul_assoc, ← zpow_natCast, ← zpow_add₀ (by norm_num)]
  congr 2
  push_cast
  omega

/-- A decimal whose point stands between its digits. -/
theorem exists_written_pointBetween {n : Nat} (hn : 0 < n) {k : Nat} (hk : 0 < k)
    (hlength : k < (Nat.toDigits 10 n).length) :
    ∃ w : Written, (Nat.toDigits 10 n).take k ++ '.' :: (Nat.toDigits 10 n).drop k = w.chars ∧
      w.IsOf ⟨n, -((Nat.toDigits 10 n).length - k : Nat)⟩ := by
  have hdigits : ∀ c ∈ Nat.toDigits 10 n, c.isDigit = true := forall_isDigit_toDigits n
  have hws : IsWhole ((Nat.toDigits 10 n).take k) := by
    refine isWhole_of_prefix hn [] ?_ ⟨(Nat.toDigits 10 n).drop k, ?_⟩ ?_
    · intro h
      have hzero := congrArg List.length h
      rw [List.length_take, List.length_nil] at hzero
      omega
    · rw [List.take_append_drop, List.append_nil]
    · exact fun c hc => hdigits c (List.mem_of_mem_take hc)
  have hne : (Nat.toDigits 10 n).drop k ≠ [] := by
    intro h
    have hzero := congrArg List.length h
    rw [List.length_drop, List.length_nil] at hzero
    omega
  let w : Written := {
    whole := (Nat.toDigits 10 n).take k
    fraction := (Nat.toDigits 10 n).drop k
    exponent := none
    isWhole := hws
    isDigit_fraction := fun c hc => hdigits c (List.mem_of_mem_drop hc)
    isDigit_exponent := nofun }
  have hchars : w.chars = (Nat.toDigits 10 n).take k ++ '.' :: (Nat.toDigits 10 n).drop k := by
    have hpointed : pointed w.fraction = '.' :: (Nat.toDigits 10 n).drop k :=
      if_neg fun h => hne (List.isEmpty_iff.1 h)
    rw [Written.chars, hpointed]
    exact congrArg (_ ++ ·) (List.append_nil _)
  have hvalue : w.digits = n := by
    show digitsValue ((Nat.toDigits 10 n).take k ++ (Nat.toDigits 10 n).drop k) = n
    rw [List.take_append_drop, digitsValue_toDigits]
  have hpower : w.power = -((Nat.toDigits 10 n).length - k : Nat) := by
    show (0 : Int) - ((Nat.toDigits 10 n).drop k).length = _
    rw [List.length_drop]
    omega
  refine ⟨w, hchars.symm, .inl hne, ?_, .inl hpower⟩
  rw [Written.decimal, hvalue, hpower]

/-- A decimal with its point in place. -/
theorem exists_written_renderPositional {n : Nat} (hn : 0 < n) (exponent : Int) :
    ∃ w : Written, (renderPositional (Nat.toDigits 10 n)
      (exponent + (Nat.toDigits 10 n).length)).toList = w.chars ∧ w.IsOf ⟨n, exponent⟩ := by
  generalize hpoint : exponent + ((Nat.toDigits 10 n).length : Int) = point
  unfold renderPositional
  split
  · have h := exists_written_pointBefore n (-point).toNat
    have hexponent : -(((-point).toNat : Int) + (Nat.toDigits 10 n).length) = exponent := by
      omega
    rwa [hexponent, ← String.toList_ofList (l := _ :: _)] at h
  · dsimp only
    split
    · have h := exists_written_pointAfter hn (point.toNat - (Nat.toDigits 10 n).length)
      have hexponent : ((point.toNat - (Nat.toDigits 10 n).length : Nat) : Int) = exponent := by
        omega
      rw [hexponent] at h
      rwa [String.toList_ofList]
    · have h := exists_written_pointBetween hn (k := point.toNat) (by omega) (by omega)
      have hexponent : -(((Nat.toDigits 10 n).length - point.toNat : Nat) : Int) = exponent := by
        omega
      rw [hexponent] at h
      rwa [String.toList_ofList]

/-- A decimal with an exponent. -/
theorem exists_written_renderScientific (n : Nat) (exponent : Int) :
    ∃ w : Written, (renderScientific 2 (Nat.toDigits 10 n)
      (exponent + (Nat.toDigits 10 n).length - 1)).toList = w.chars ∧ w.IsOf ⟨n, exponent⟩ := by
  have hdigits := forall_isDigit_toDigits n
  have hvalue := digitsValue_toDigits n
  have hwhole := isWhole_toDigits n
  generalize Nat.toDigits 10 n = ds at hdigits hvalue hwhole ⊢
  obtain ⟨d, fs, rfl, hd⟩ := hwhole.exists_eq_cons
  generalize hplace : exponent + ((d :: fs).length : Int) - 1 = place
  rw [List.length_cons] at hplace
  -- the digits of the exponent
  have hes : ∀ c ∈ Text.padStart '0' 2 (Nat.toDigits 10 place.natAbs), c.isDigit = true :=
    forall_isDigit_append (forall_isDigit_replicate _) (forall_isDigit_toDigits _)
  have hne : Text.padStart '0' 2 (Nat.toDigits 10 place.natAbs) ≠ [] := by
    intro h
    exact Nat.toDigits_ne_nil (List.append_eq_nil_iff.1 h).2
  have hesValue : digitsValue (Text.padStart '0' 2 (Nat.toDigits 10 place.natAbs)) =
      place.natAbs := by
    rw [Text.padStart, digitsValue_append, digitsValue_replicate_zero, digitsValue_toDigits]
    omega
  let w : Written := {
    whole := [d]
    fraction := fs
    exponent := some (decide (place < 0), Text.padStart '0' 2 (Nat.toDigits 10 place.natAbs))
    isWhole := ⟨by simp, by simpa using hd, by simp⟩
    isDigit_fraction := fun c hc => hdigits c (List.mem_cons_of_mem d hc)
    isDigit_exponent := fun p hp => by
      cases hp
      exact ⟨hne, hes⟩ }
  have hscale : w.scale = place := by
    show (if decide (place < 0) = true then -(digitsValue _ : Int) else digitsValue _) = place
    rw [hesValue]
    split
    · rename_i hneg
      have := of_decide_eq_true hneg
      omega
    · rename_i hneg
      have : ¬ place < 0 := fun hlt => hneg (decide_eq_true hlt)
      omega
  have hpower : w.power = exponent := by
    rw [Written.power, hscale]
    show place - (fs.length : Int) = exponent
    omega
  have hchars : w.chars = (renderScientific 2 (d :: fs) place).toList := by
    unfold renderScientific renderExponent
    cases fs <;> simp [w, Written.chars, Written.tail, pointed]
  refine ⟨w, hchars.symm, .inr (Option.some_ne_none _), ?_, .inl hpower⟩
  rw [Written.decimal, hpower, show w.digits = n from hvalue]

/-- A decimal under the layout of floating point numbers. -/
theorem Decimal.exists_written {d : Decimal} (hd : 0 < d.digits) :
    ∃ w : Written, (d.render FloatLayout.standard).toList = w.chars ∧ w.IsOf d := by
  unfold Decimal.render
  dsimp only
  split
  · rw [show d.exponent + ((Nat.toDigits 10 d.digits).length : Int) - 1 + 1 =
      d.exponent + (Nat.toDigits 10 d.digits).length by omega]
    exact exists_written_renderPositional hd d.exponent
  · exact exists_written_renderScientific d.digits d.exponent

/-- The decimal that the notation of a finite magnitude denotes. -/
def Binary64.noted (m : Nat) (e : Int) : Decimal := if m = 0 then ⟨0, -1⟩ else shortest m e

/-- The notation of a finite number: its sign and a notation of its decimal. -/
theorem Binary64.exists_written (negative : Bool) {m : Nat} {e : Int}
    (canonical : IsCanonical (.finite negative m e)) :
    ∃ w : Written, (render (.finite negative m e)).toList =
      (minusIf negative).toList ++ w.chars ∧ w.IsOf (noted m e) := by
  unfold noted render
  rw [String.toList_append]
  split
  · exact ⟨.zero, rfl, .inl (List.cons_ne_nil '0' []), rfl, .inr rfl⟩
  · rename_i hm
    obtain ⟨hdigits, -⟩ := ofDecimal_shortest false (Nat.pos_of_ne_zero hm) canonical
    obtain ⟨w, hchars, hw⟩ := Decimal.exists_written hdigits
    exact ⟨w, by rw [hchars], hw⟩

/-- A notation of its decimal reads back as the number. -/
theorem Written.IsOf.ofDecimal_eq {w : Written} {m : Nat} {e : Int}
    (hw : w.IsOf (Binary64.noted m e)) (negative : Bool)
    (canonical : Binary64.IsCanonical (.finite negative m e)) :
    Binary64.ofDecimal negative w.digits w.power = .finite negative m e := by
  have hvalue := hw.value
  unfold Binary64.noted at hvalue
  split at hvalue
  · rename_i hm
    -- zero is held with the least exponent, so its sign is all that is read
    have he : e = Binary64.minExponent := by
      obtain ⟨-, -, -, he | hfull⟩ := canonical
      · exact he
      · rw [hm] at hfull
        exact absurd hfull (by decide)
    have hdigits : w.digits = 0 := by
      simpa [Decimal.value, Written.decimal, (Binary64.ten_zpow_pos w.power).ne'] using hvalue
    rw [hdigits, hm, he]
    rfl
  · rename_i hm
    obtain ⟨hdigits, hread⟩ :=
      Binary64.ofDecimal_shortest negative (Nat.pos_of_ne_zero hm) canonical
    have hpos : 0 < w.digits := by
      refine Nat.pos_of_ne_zero fun hzero => ?_
      have hshortest : 0 < (Binary64.shortest m e).value :=
        mul_pos (by exact_mod_cast hdigits) (Binary64.ten_zpow_pos _)
      rw [← hvalue, Decimal.value, Written.decimal, hzero] at hshortest
      simp at hshortest
    rw [← hread]
    exact Binary64.ofDecimal_congr negative hpos hdigits hvalue

end Questionnaire
