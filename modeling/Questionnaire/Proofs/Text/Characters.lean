import Questionnaire.Unicode.Blank
import Questionnaire.Unicode.Digit
import Questionnaire.Unicode.Word

/-!
# Classes of characters

## Main Statements

* `Unicode.covers_of_apart` - ranges that lie apart have no character in common
* `Unicode.isBlank_of_isWord`, `Unicode.isBlank_of_digit` - words and digits are not blank
* `Unicode.toLower_of_digit` - digits are no letters
-/

namespace Questionnaire

namespace Unicode

/-- Ranges that lie apart cover no code point in common. -/
theorem covers_of_apart {ranges ranges' : List (Nat × Nat)}
    (apart : ∀ r ∈ ranges, ∀ r' ∈ ranges', r.2 < r'.1 ∨ r'.2 < r.1) {n : Nat}
    (h : covers ranges n = true) : covers ranges' n = false := by
  simp only [covers, List.any_eq_true, List.any_eq_false, Bool.and_eq_true,
    decide_eq_true_eq] at h ⊢
  obtain ⟨r, hr, hlow, hhigh⟩ := h
  intro r' hr' hn
  rcases apart r hr r' hr' with hlt | hlt <;> omega

theorem isBlank_of_isWord {c : Char} (h : isWord c = true) : isBlank c = false :=
  covers_of_apart (by decide +kernel) h

theorem isWord_of_isDigit {c : Char} (h : c.isDigit = true) : isWord c = true := by
  have hc : 0x30 ≤ c.toNat ∧ c.toNat ≤ 0x39 := by
    simpa [Char.isDigit, UInt32.le_iff_toNat_le] using h
  have hwords : wordRanges = (0x30, 0x39) :: wordRanges.tail := rfl
  rw [isWord, hwords, covers_cons]
  simp [hc]

theorem covers_of_isDigit {c : Char} (h : isDigit c = true) :
    covers (zeros.map fun z => (z, z + 9)) c.toNat = true := by
  obtain ⟨d, hd⟩ := Option.isSome_iff_exists.1 h
  obtain ⟨z, hz, -⟩ := Option.map_eq_some_iff.1 hd
  have hrange := List.find?_some hz
  simp only [Bool.and_eq_true, decide_eq_true_eq] at hrange
  refine List.any_eq_true.2 ⟨_, List.mem_map_of_mem (List.mem_of_find?_eq_some hz), ?_⟩
  simp only [Bool.and_eq_true, decide_eq_true_eq]
  omega

/-- A digit of any script is not blank. -/
theorem isBlank_of_digit {c : Char} (h : isDigit c = true) : isBlank c = false :=
  covers_of_apart (by decide +kernel) (covers_of_isDigit h)

/-- A digit of any script is no capital letter. -/
theorem toLower_of_digit {c : Char} (h : isDigit c = true) : c.toLower = c := by
  have hcapital : covers [(0x41, 0x5A)] c.toNat = false :=
    covers_of_apart (by decide +kernel) (covers_of_isDigit h)
  refine dif_neg fun hupper => ?_
  have hlow : 0x41 ≤ c.toNat := UInt32.le_iff_toNat_le.1 hupper.1
  have hhigh : c.toNat ≤ 0x5A := UInt32.le_iff_toNat_le.1 hupper.2
  simp [covers, hlow, hhigh] at hcapital

theorem isDigit_of_isDigit {c : Char} (h : c.isDigit = true) : isDigit c = true := by
  rw [isDigit, digit?_of_isDigit h, Option.isSome_some]

end Unicode

end Questionnaire
