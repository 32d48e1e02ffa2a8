import Mathlib.Tactic.Ring
import Questionnaire.Number.Reading

/-!
# Rows of digits

The digits of a natural denote it, and the digits of a longer row are worth a power of ten more.

## Main Statements

* `digitsValue_append` - the value of two rows one after the other
* `digitsValue_toDigits` - the digits of a natural denote it
-/

namespace Questionnaire

theorem digitsValue_foldl (cs : List Char) (n : Nat) :
    cs.foldl (fun n c => 10 * n + (Unicode.digit? c).getD 0) n =
      n * 10 ^ cs.length + digitsValue cs := by
  unfold digitsValue
  induction cs generalizing n with
  | nil => simp
  | cons c cs ih =>
    rw [List.foldl_cons, List.foldl_cons, ih, ih (10 * 0 + _), List.length_cons]
    ring

theorem digitsValue_append (cs ds : List Char) :
    digitsValue (cs ++ ds) = digitsValue cs * 10 ^ ds.length + digitsValue ds := by
  rw [digitsValue, List.foldl_append, digitsValue_foldl]
  rfl

theorem digitsValue_digitChar {d : Nat} (hd : d < 10) : digitsValue [d.digitChar] = d := by
  have hall : ∀ d : Fin 10, digitsValue [d.val.digitChar] = d.val := by decide
  exact hall ⟨d, hd⟩

/-- The digits of a natural denote it. -/
theorem digitsValue_toDigits (n : Nat) : digitsValue (Nat.toDigits 10 n) = n := by
  induction n using Nat.strongRecOn with
  | _ n ih =>
    by_cases hn : n < 10
    · rw [Nat.toDigits_of_lt_base hn, digitsValue_digitChar hn]
    · rw [Nat.toDigits_of_base_le (by decide) (Nat.le_of_not_lt hn), digitsValue_append,
        ih (n / 10) (Nat.div_lt_self (by omega) (by decide)),
        digitsValue_digitChar (Nat.mod_lt n (by decide)), List.length_singleton]
      omega

theorem digitsValue_replicate_zero (k : Nat) : digitsValue (List.replicate k '0') = 0 := by
  induction k with
  | zero => rfl
  | succ k ih =>
    rw [List.replicate_succ', digitsValue_append, ih]
    rfl

theorem isDigit_of_mem_toDigits {n : Nat} {c : Char} (h : c ∈ Nat.toDigits 10 n) :
    c.isDigit = true := Nat.isDigit_of_mem_toDigits (by decide) (by decide) h

/-- The digits of a positive natural do not begin with a zero. -/
theorem head_toDigits_ne_zero {n : Nat} (hn : 0 < n) {c : Char} {cs : List Char}
    (h : Nat.toDigits 10 n = c :: cs) : c ≠ '0' := by
  induction n using Nat.strongRecOn generalizing cs with
  | _ n ih =>
    by_cases hlt : n < 10
    · have hall : ∀ d : Fin 10, 0 < d.val → d.val.digitChar ≠ '0' := by decide
      rw [Nat.toDigits_of_lt_base hlt] at h
      cases h
      exact hall ⟨n, hlt⟩ hn
    · rw [Nat.toDigits_of_base_le (by decide) (Nat.le_of_not_lt hlt)] at h
      rcases List.append_eq_cons_iff.1 h with hnil | ⟨ds, hds, -⟩
      · exact absurd hnil.1 Nat.toDigits_ne_nil
      · exact ih (n / 10) (Nat.div_lt_self hn (by decide)) (by omega) hds

theorem length_repr (n : Nat) : n.repr.length = (Nat.toDigits 10 n).length := by
  rw [← String.length_toList, Nat.toList_repr]

theorem length_repr_pos (n : Nat) : 0 < n.repr.length := by
  rw [length_repr]
  exact Nat.length_toDigits_pos

/-- The number of digits locates a natural between two powers of ten. -/
theorem lt_pow_length_repr (n : Nat) : n < 10 ^ n.repr.length := by
  rw [length_repr]
  exact (Nat.length_toDigits_le_iff (by decide) Nat.length_toDigits_pos).1 (Nat.le_refl _)

theorem pow_length_repr_le {n : Nat} (hn : 0 < n) : 10 ^ (n.repr.length - 1) ≤ n := by
  rw [length_repr]
  have hpos : 0 < (Nat.toDigits 10 n).length := Nat.length_toDigits_pos
  by_cases hone : (Nat.toDigits 10 n).length = 1
  · rw [hone]
    exact hn
  · refine Nat.le_of_not_lt fun hlt => ?_
    have := (Nat.length_toDigits_le_iff (by decide) (by omega)).2 hlt
    omega

end Questionnaire
