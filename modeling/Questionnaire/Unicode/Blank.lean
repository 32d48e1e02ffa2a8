import Questionnaire.Unicode.Ranges

/-!
# Blank characters

The characters that separate words: the Unicode white space, and the four information separators
U+001C to U+001F.

## Main Definitions

* `Unicode.isBlank` - whether a character is blank
* `Unicode.isLineEnd` - whether a character ends a line of a text
-/

namespace Questionnaire.Unicode

/-- The blank characters as ranges. -/
def blankRanges : List (Nat × Nat) := [
  (0x9, 0xD), (0x1C, 0x20), (0x85, 0x85), (0xA0, 0xA0), (0x1680, 0x1680),
  (0x2000, 0x200A), (0x2028, 0x2029), (0x202F, 0x202F), (0x205F, 0x205F), (0x3000, 0x3000)]

/-- A blank character is white space or an information separator. -/
def isBlank (c : Char) : Bool := covers blankRanges c.toNat

theorem isBlank_of_isWhitespace {c : Char} (h : c.isWhitespace = true) : isBlank c = true := by
  simp only [Char.isWhitespace, Bool.or_eq_true, decide_eq_true_eq] at h
  rcases h with ((rfl | rfl) | rfl) | rfl <;> decide

/-- The characters that end a line. -/
def lineEndRanges : List (Nat × Nat) := [
  (0xA, 0xD), (0x1C, 0x1E), (0x85, 0x85), (0x2028, 0x2029)]

/-- A line ends at a line feed, a carriage return, a vertical tab, a form feed, one of three
information separators, a next-line control, or a Unicode line or paragraph separator. -/
def isLineEnd (c : Char) : Bool := covers lineEndRanges c.toNat

end Questionnaire.Unicode
