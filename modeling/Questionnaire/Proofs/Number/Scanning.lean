import Questionnaire.Proofs.Number.Notation

/-!
# Numerals at the start of a text

A plain numeral reaches as far as its digits and the one point between them.  A text that begins
with it, after a minus or without one, is read as its number.

## Main Statements

* `Numeral.scan?_append` - what follows a numeral is left
* `Numeral.search?_of_scan?` - a numeral at the start of a text is the one that is found
-/

namespace Questionnaire.Numeral

variable {whole fraction rest : List Char}

/-- Digits end where no digit follows. -/
theorem takeWhile_digits {ds : List Char} (hds : ∀ c ∈ ds, Unicode.isDigit c = true)
    (ended : ∀ c ∈ rest.head?, Unicode.isDigit c = false) :
    (ds ++ rest).takeWhile Unicode.isDigit = ds ∧
      (ds ++ rest).dropWhile Unicode.isDigit = rest := by
  rw [List.takeWhile_append_of_pos hds, List.dropWhile_append_of_pos hds]
  cases rest with
  | nil => exact ⟨List.append_nil ds, rfl⟩
  | cons c cs =>
    have hc : ¬ Unicode.isDigit c = true := by
      rw [ended c rfl]
      exact Bool.false_ne_true
    rw [List.takeWhile_cons_of_neg hc, List.dropWhile_cons_of_neg hc, List.append_nil]
    exact ⟨rfl, rfl⟩

/-- What follows a numeral is left.  It begins with no digit, and without a fraction with no point
either. -/
theorem scan?_append (given : whole ≠ []) (hwhole : ∀ c ∈ whole, Unicode.isDigit c = true)
    (hfraction : ∀ c ∈ fraction, Unicode.isDigit c = true)
    (ended : ∀ c ∈ rest.head?, Unicode.isDigit c = false)
    (noPoint : fraction = [] → rest.head? ≠ some '.') :
    scan? (whole ++ (pointed fraction ++ rest)) = some (⟨whole, fraction⟩, rest) := by
  have hempty : whole.isEmpty = false := by simpa using given
  unfold scan? pointed
  cases fraction with
  | nil =>
    obtain ⟨htake, hdrop⟩ := takeWhile_digits hwhole ended
    rw [List.isEmpty_nil, if_pos rfl, List.nil_append, htake, hdrop]
    simp only [hempty, Bool.false_eq_true, if_false]
    split
    · exact absurd rfl (noPoint rfl)
    · rfl
  | cons d ds =>
    have hpoint : ∀ c ∈ ('.' :: (d :: ds ++ rest)).head?, Unicode.isDigit c = false := by
      rintro c ⟨⟩
      decide +kernel
    obtain ⟨htake, hdrop⟩ := takeWhile_digits hwhole hpoint
    obtain ⟨htake', hdrop'⟩ := takeWhile_digits hfraction ended
    rw [List.isEmpty_cons, if_neg Bool.false_ne_true, List.cons_append, htake, hdrop]
    simp only [hempty, Bool.false_eq_true, if_false, htake', hdrop', List.isEmpty_cons]

/-- A numeral at the start of a text, with an optional minus before it, is the one that is found. -/
theorem search?_of_scan? (negative : Bool) {c : Char} {cs : List Char} {n : Numeral}
    (hc : Unicode.isDigit c = true) (h : scan? (c :: cs) = some (n, rest)) :
    search? ((if negative then ['-'] else []) ++ c :: cs) = some (n.toBinary64 negative) := by
  cases negative with
  | true =>
    show search? ('-' :: c :: cs) = _
    rw [search?, scanSigned?, h, Option.map_some]
  | false =>
    have hminus : c ≠ '-' := by
      rintro rfl
      exact absurd hc (by decide)
    have hsigned : scanSigned? (c :: cs) = some (n.toBinary64 false) := by
      unfold scanSigned?
      split
      · next heq => exact absurd (List.cons.inj heq).1 hminus
      · rw [h, Option.map_some]
    show search? (c :: cs) = _
    rw [search?, hsigned]

end Questionnaire.Numeral
