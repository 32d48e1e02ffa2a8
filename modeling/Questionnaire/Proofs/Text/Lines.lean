import Questionnaire.Proofs.Text.Characters
import Questionnaire.Proofs.Text.Pieces

/-!
# Lines of a text

A text falls into lines, and each of its lines into pieces.  Blanks at the two ends of the text make
no difference to the pieces, even where they end lines themselves.

## Main Definitions

* `Text.piecesOf` - the pieces of the lines that have any

## Main Statements

* `Text.piecesOf_trimChars` - the pieces of the lines of a trimmed text
-/

namespace Questionnaire

namespace Unicode

/-- Ranges within other ranges cover no further code points. -/
theorem covers_of_within {ranges ranges' : List (Nat × Nat)}
    (within : ∀ r ∈ ranges, ∃ r' ∈ ranges', r'.1 ≤ r.1 ∧ r.2 ≤ r'.2) {n : Nat}
    (h : covers ranges n = true) : covers ranges' n = true := by
  simp only [covers, List.any_eq_true, Bool.and_eq_true, decide_eq_true_eq] at h ⊢
  obtain ⟨r, hr, hlow, hhigh⟩ := h
  obtain ⟨r', hr', hlow', hhigh'⟩ := within r hr
  exact ⟨r', hr', by omega, by omega⟩

/-- A character that ends a line is blank. -/
theorem isBlank_of_isLineEnd {c : Char} (h : isLineEnd c = true) : isBlank c = true :=
  covers_of_within (by decide +kernel) h

end Unicode

namespace Text

variable {p : Char → Bool} {line cs lead trail : List Char} {c : Char}

/-- The trimmed pieces of each of the lines that have any. -/
def piecesOf (p : Char → Bool) (lines : List (List Char)) : List (List (List Char)) :=
  (lines.map (trimmedPieces p)).filter (· ≠ [])

/-- Only the pieces of a line count. -/
theorem piecesOf_cons_congr {line' : List Char} {lines lines' : List (List Char)}
    (h : trimmedPieces p line = trimmedPieces p line')
    (hlines : piecesOf p lines = piecesOf p lines') :
    piecesOf p (line :: lines) = piecesOf p (line' :: lines') := by
  unfold piecesOf at hlines ⊢
  rw [List.map_cons, List.map_cons, List.filter_cons, List.filter_cons, h, hlines]

/-- An empty line has no pieces. -/
theorem piecesOf_cons_nil (lines : List (List Char)) :
    piecesOf p ([] :: lines) = piecesOf p lines := by
  have hnone : trimmedPieces p [] = [] := by
    simp [trimmedPieces, splitWhere, trimChars, trimEnd]
  rw [piecesOf, List.map_cons, List.filter_cons_of_neg (by simpa using hnone), piecesOf]

/-- The last line has its pieces, be it empty or not. -/
theorem piecesOf_linesFrom_nil (afterReturn : Bool) (line : List Char) :
    piecesOf p (linesFrom afterReturn line []) = piecesOf p [line.reverse] := by
  unfold linesFrom
  split
  · next hempty =>
    rw [List.isEmpty_iff.1 hempty, List.reverse_nil, piecesOf_cons_nil]
  · rfl

/-- A line feed that belongs to the line end before it ends an empty line otherwise. -/
theorem piecesOf_linesFrom_true (cs : List Char) :
    piecesOf p (linesFrom true [] cs) = piecesOf p (linesFrom false [] cs) := by
  cases cs with
  | nil => rfl
  | cons c cs =>
    by_cases hc : c = '\n'
    · subst hc
      exact (piecesOf_cons_nil _).symm
    · simp [linesFrom, hc]

/-- A blank in front of the current line makes no difference. -/
theorem piecesOf_linesFrom_concat (hc : Unicode.isBlank c = true) (line cs : List Char) :
    piecesOf p (linesFrom false (line ++ [c]) cs) = piecesOf p (linesFrom false line cs) := by
  have hline (line : List Char) :
      trimmedPieces p (line ++ [c]).reverse = trimmedPieces p line.reverse := by
    rw [List.reverse_append]
    exact trimmedPieces_cons_blank hc
  induction cs generalizing line with
  | nil =>
    rw [piecesOf_linesFrom_nil, piecesOf_linesFrom_nil]
    exact piecesOf_cons_congr (hline line) rfl
  | cons d cs ih =>
    simp only [linesFrom, Bool.false_and, Bool.false_eq_true, if_false]
    split
    · exact piecesOf_cons_congr (hline line) rfl
    · exact ih (d :: line)

theorem piecesOf_blank_cons (hc : Unicode.isBlank c = true) (cs : List Char) :
    piecesOf p (linesFrom false [] (c :: cs)) = piecesOf p (linesFrom false [] cs) := by
  simp only [linesFrom, Bool.false_and, Bool.false_eq_true, if_false]
  split
  · rw [List.reverse_nil, piecesOf_cons_nil]
    cases c == '\r' with
    | false => rfl
    | true => exact piecesOf_linesFrom_true cs
  · exact piecesOf_linesFrom_concat hc [] cs

theorem piecesOf_concat_blank (hc : Unicode.isBlank c = true) (afterReturn : Bool)
    (line cs : List Char) : piecesOf p (linesFrom afterReturn line (cs ++ [c])) =
      piecesOf p (linesFrom afterReturn line cs) := by
  induction cs generalizing afterReturn line with
  | nil =>
    rw [List.nil_append, piecesOf_linesFrom_nil, linesFrom]
    split
    · exact piecesOf_linesFrom_nil false line
    · split
      · rfl
      · rw [piecesOf_linesFrom_nil, List.reverse_cons]
        exact piecesOf_cons_congr (trimmedPieces_concat_blank hc) rfl
  | cons d cs ih =>
    rw [List.cons_append, linesFrom, linesFrom]
    split
    · exact ih false line
    · split
      · exact piecesOf_cons_congr rfl (ih _ [])
      · exact ih false (d :: line)

/-- Blanks around a text make no difference to the pieces of its lines. -/
theorem piecesOf_pad (blankLead : ∀ d ∈ lead, Unicode.isBlank d = true)
    (blankTrail : ∀ d ∈ trail, Unicode.isBlank d = true) :
    piecesOf p (linesFrom false [] (lead ++ (cs ++ trail))) =
      piecesOf p (linesFrom false [] cs) := by
  have htrail : piecesOf p (linesFrom false [] (cs ++ trail)) =
      piecesOf p (linesFrom false [] cs) := by
    induction trail generalizing cs with
    | nil => rw [List.append_nil]
    | cons d trail ih =>
      obtain ⟨hd, hrest⟩ := List.forall_mem_cons.1 blankTrail
      rw [List.append_cons, ih hrest, piecesOf_concat_blank hd]
  rw [← htrail]
  induction lead with
  | nil => rfl
  | cons d lead ih =>
    obtain ⟨hd, hrest⟩ := List.forall_mem_cons.1 blankLead
    rw [List.cons_append, piecesOf_blank_cons hd, ih hrest]

/-- The lines of a trimmed text have the same pieces. -/
theorem piecesOf_trimChars (p : Char → Bool) (cs : List Char) :
    piecesOf p (linesFrom false [] (trimChars cs)) = piecesOf p (linesFrom false [] cs) := by
  obtain ⟨lead, trail, blankLead, blankTrail, hcs⟩ := exists_eq_append_trimChars cs
  conv_rhs => rw [hcs]
  exact (piecesOf_pad blankLead blankTrail).symm

end Text

end Questionnaire
