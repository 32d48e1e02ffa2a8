import Questionnaire.Proofs.Text.Trimming

/-!
# Pieces of a text

A text falls into pieces at its separators.  The pieces are trimmed and blank ones are left out, so
blanks at the two ends of the text make no difference, even where they are separators themselves.

## Main Definitions

* `Text.trimmedPieces` - the trimmed pieces that are not blank

## Main Statements

* `Text.splitWhere_append_cons` - the pieces on both sides of a separator
* `Text.trimmedPieces_intercalate` - the pieces of texts that are joined by a separator
* `Text.trimmedPieces_pad` - blanks around a text
* `Text.trimmedPieces_trimChars` - the pieces of a trimmed text
-/

namespace Questionnaire.Text

variable {p : Char → Bool} {cs lead trail rest : List Char} {c : Char}

/-! ## Splitting -/

/-- The pieces on both sides of a separator. -/
theorem splitWhere_append_cons (hc : p c = true) :
    splitWhere p (cs ++ c :: rest) = splitWhere p cs ++ splitWhere p rest := by
  induction cs with
  | nil =>
    show splitWhere p (c :: rest) = [] :: splitWhere p rest
    rw [splitWhere, if_pos hc]
  | cons d cs ih =>
    rw [List.cons_append, splitWhere, splitWhere, ih]
    split
    · rfl
    · cases hpieces : splitWhere p cs with
      | nil => exact absurd hpieces (splitWhere_ne_nil p cs)
      | cons piece pieces => rfl

/-- A text without separators is one piece. -/
theorem splitWhere_eq_singleton (h : ∀ d ∈ cs, p d = false) : splitWhere p cs = [cs] := by
  induction cs with
  | nil => rfl
  | cons d cs ih =>
    obtain ⟨hd, hcs⟩ := List.forall_mem_cons.1 h
    rw [splitWhere, hd, if_neg Bool.false_ne_true, ih hcs]

/-- A further character that is no separator belongs to the last piece. -/
theorem exists_splitWhere_concat (p : Char → Bool) (cs : List Char) {c : Char} (hc : p c = false) :
    ∃ before last, splitWhere p cs = before ++ [last] ∧
      splitWhere p (cs ++ [c]) = before ++ [last ++ [c]] := by
  induction cs with
  | nil => exact ⟨[], [], rfl, by rw [List.nil_append, splitWhere, if_neg (by simp [hc])]; rfl⟩
  | cons d cs ih =>
    obtain ⟨before, last, hcs, hconcat⟩ := ih
    rw [List.cons_append, splitWhere, splitWhere, hcs, hconcat]
    split
    · exact ⟨[] :: before, last, rfl, rfl⟩
    · cases before with
      | nil => exact ⟨[], d :: last, rfl, rfl⟩
      | cons piece before => exact ⟨(d :: piece) :: before, last, rfl, rfl⟩

/-! ## Trimming -/

theorem trimChars_cons_blank (hc : Unicode.isBlank c = true) :
    trimChars (c :: cs) = trimChars cs := by
  rw [trimChars, List.dropWhile_cons_of_pos hc, trimChars]

theorem trimEnd_append_blank (blank : ∀ d ∈ trail, Unicode.isBlank d = true) :
    trimEnd (cs ++ trail) = trimEnd cs := by
  rw [trimEnd, List.reverse_append,
    List.dropWhile_append_of_pos fun d hd => blank d (List.mem_reverse.1 hd), trimEnd]

theorem trimChars_append_blank (blank : ∀ d ∈ trail, Unicode.isBlank d = true) :
    trimChars (cs ++ trail) = trimChars cs := by
  rw [trimChars, List.dropWhile_append]
  split
  · next hempty =>
    rw [trimChars, List.isEmpty_iff.1 hempty, List.dropWhile_eq_nil_iff.2 blank]
  · exact trimEnd_append_blank blank

/-- A text is its trimmed form with blanks around it. -/
theorem exists_eq_append_trimChars (cs : List Char) :
    ∃ lead trail, (∀ d ∈ lead, Unicode.isBlank d = true) ∧
      (∀ d ∈ trail, Unicode.isBlank d = true) ∧ cs = lead ++ (trimChars cs ++ trail) := by
  have hsplit (ds : List Char) :
      ds.takeWhile Unicode.isBlank ++ ds.dropWhile Unicode.isBlank = ds :=
    List.takeWhile_append_dropWhile
  have hend (ds : List Char) :
      trimEnd ds ++ (ds.reverse.takeWhile Unicode.isBlank).reverse = ds := by
    rw [trimEnd, ← List.reverse_append, hsplit, List.reverse_reverse]
  refine ⟨cs.takeWhile Unicode.isBlank,
    ((cs.dropWhile Unicode.isBlank).reverse.takeWhile Unicode.isBlank).reverse, ?_, ?_, ?_⟩
  · intro d hd
    exact List.mem_takeWhile_imp hd
  · intro d hd
    exact List.mem_takeWhile_imp (List.mem_reverse.1 hd)
  · rw [trimChars, hend, hsplit]

/-! ## Trimmed pieces -/

/-- The trimmed pieces of a text, blank ones left out. -/
def trimmedPieces (p : Char → Bool) (cs : List Char) : List (List Char) :=
  ((splitWhere p cs).map trimChars).filter (· ≠ [])

theorem splitTrimmed_eq (p : Char → Bool) (s : String) :
    splitTrimmed p s = (trimmedPieces p s.toList).map String.ofList := by
  unfold splitTrimmed split trimmedPieces
  rw [List.map_map, List.filter_map, List.filter_map, List.map_map]
  congr 1
  · funext piece
    simp [trim]
  · refine List.filter_congr fun piece _ => ?_
    simp [trim, String.ofList_eq_empty_iff]

theorem trimmedPieces_append_cons (hc : p c = true) :
    trimmedPieces p (cs ++ c :: rest) = trimmedPieces p cs ++ trimmedPieces p rest := by
  rw [trimmedPieces, splitWhere_append_cons hc, List.map_append, List.filter_append, trimmedPieces,
    trimmedPieces]

/-- The pieces of texts that are joined by a separator. -/
theorem trimmedPieces_intercalate (hc : p c = true) (texts : List (List Char)) :
    trimmedPieces p (List.intercalate [c] texts) = texts.flatMap (trimmedPieces p) := by
  induction texts with
  | nil => rfl
  | cons cs texts ih =>
    cases texts with
    | nil => simp
    | cons ds texts =>
      have hjoined : List.intercalate [c] (cs :: ds :: texts) =
          cs ++ c :: List.intercalate [c] (ds :: texts) := by
        simp [List.intercalate, List.intersperse]
      rw [hjoined, trimmedPieces_append_cons hc, ih]
      rfl

/-- A trimmed text without separators is its only piece. -/
theorem trimmedPieces_eq_singleton (h : ∀ d ∈ cs, p d = false) (trimmed : trimChars cs = cs)
    (filled : cs ≠ []) : trimmedPieces p cs = [cs] := by
  rw [trimmedPieces, splitWhere_eq_singleton h, List.map_singleton, trimmed,
    List.filter_cons_of_pos (by simpa using filled), List.filter_nil]

theorem trimmedPieces_cons_blank (hc : Unicode.isBlank c = true) :
    trimmedPieces p (c :: cs) = trimmedPieces p cs := by
  rw [trimmedPieces, trimmedPieces, splitWhere]
  split
  · rw [List.map_cons, List.filter_cons_of_neg (by simp [trimChars, trimEnd])]
  · cases hpieces : splitWhere p cs with
    | nil => exact absurd hpieces (splitWhere_ne_nil p cs)
    | cons piece pieces =>
      dsimp only
      rw [List.map_cons, trimChars_cons_blank hc, List.map_cons]

theorem trimmedPieces_blank_append (blank : ∀ d ∈ lead, Unicode.isBlank d = true) :
    trimmedPieces p (lead ++ cs) = trimmedPieces p cs := by
  induction lead with
  | nil => rfl
  | cons d lead ih =>
    obtain ⟨hd, hlead⟩ := List.forall_mem_cons.1 blank
    rw [List.cons_append, trimmedPieces_cons_blank hd, ih hlead]

theorem trimmedPieces_concat_blank (hc : Unicode.isBlank c = true) :
    trimmedPieces p (cs ++ [c]) = trimmedPieces p cs := by
  cases hsep : p c with
  | true =>
    rw [trimmedPieces_append_cons hsep]
    exact List.append_nil _
  | false =>
    obtain ⟨before, last, hcs, hconcat⟩ := exists_splitWhere_concat p cs hsep
    have hlast : trimChars (last ++ [c]) = trimChars last :=
      trimChars_append_blank (by simpa using hc)
    rw [trimmedPieces, hconcat, trimmedPieces, hcs, List.map_append, List.map_singleton, hlast,
      List.map_append, List.map_singleton]

theorem trimmedPieces_append_blank (blank : ∀ d ∈ trail, Unicode.isBlank d = true) :
    trimmedPieces p (cs ++ trail) = trimmedPieces p cs := by
  induction trail generalizing cs with
  | nil => rw [List.append_nil]
  | cons d trail ih =>
    obtain ⟨hd, htrail⟩ := List.forall_mem_cons.1 blank
    rw [List.append_cons, ih htrail, trimmedPieces_concat_blank hd]

/-- Blanks around a text make no difference to its pieces. -/
theorem trimmedPieces_pad (blankLead : ∀ d ∈ lead, Unicode.isBlank d = true)
    (blankTrail : ∀ d ∈ trail, Unicode.isBlank d = true) :
    trimmedPieces p (lead ++ (cs ++ trail)) = trimmedPieces p cs := by
  rw [trimmedPieces_blank_append blankLead, trimmedPieces_append_blank blankTrail]

/-- A trimmed text falls into the same pieces. -/
theorem trimmedPieces_trimChars (p : Char → Bool) (cs : List Char) :
    trimmedPieces p (trimChars cs) = trimmedPieces p cs := by
  obtain ⟨lead, trail, blankLead, blankTrail, hcs⟩ := exists_eq_append_trimChars cs
  conv_rhs => rw [hcs]
  exact (trimmedPieces_pad blankLead blankTrail).symm

end Questionnaire.Text
