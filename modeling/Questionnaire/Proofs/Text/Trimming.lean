import Mathlib.Data.List.DropRight
import Questionnaire.Text.Basic

/-!
# Trimmed texts

## Main Statements

* `Text.trim_trim` - a trimmed text has no blanks at its ends
* `Text.trim_ne_empty_of_mem_splitTrimmed` - the trimmed pieces of a text are not blank
-/

namespace Questionnaire.Text

theorem blank_nil : ∀ c ∈ ([] : List Char), Unicode.isBlank c = true :=
  List.forall_mem_nil _

theorem blank_space : ∀ c ∈ [' '], Unicode.isBlank c = true :=
  List.all_eq_true.1 (by decide +kernel)

theorem dropWhile_trimEnd {cs : List Char} (h : cs.dropWhile Unicode.isBlank = cs) :
    (trimEnd cs).dropWhile Unicode.isBlank = trimEnd cs := by
  -- what is left begins as the characters do
  obtain ⟨rest, hrest⟩ : trimEnd cs <+: cs := by
    rw [← List.reverse_suffix, trimEnd, List.reverse_reverse]
    exact List.dropWhile_suffix _
  cases hcs : trimEnd cs with
  | nil => rfl
  | cons c cs' =>
    rw [hcs] at hrest
    rw [← hrest, List.cons_append] at h
    refine List.dropWhile_cons_of_neg fun hblank => ?_
    rw [List.dropWhile_cons_of_pos hblank] at h
    have hlength := congrArg List.length h
    have hle := (List.dropWhile_suffix (l := cs' ++ rest) Unicode.isBlank).length_le
    simp only [List.length_cons] at hlength
    omega

/-- Nothing is dropped from characters whose first one is to be kept. -/
theorem dropWhile_of_head {p : Char → Bool} {cs : List Char} (h : ∀ c ∈ cs.head?, p c = false) :
    cs.dropWhile p = cs := by
  cases cs with
  | nil => rfl
  | cons c cs => exact List.dropWhile_cons_of_neg (by simp [h c rfl])

theorem dropWhile_eq_self {p : Char → Bool} {cs : List Char} (h : ∀ c ∈ cs, p c = false) :
    cs.dropWhile p = cs :=
  dropWhile_of_head fun c hc => h c (List.mem_of_mem_head? hc)

/-- Characters at the ends that are to be kept are kept. -/
theorem dropEnds_eq_self {p : Char → Bool} {cs : List Char} (h : ∀ c ∈ cs, p c = false) :
    ((cs.dropWhile p).reverse.dropWhile p).reverse = cs := by
  rw [dropWhile_eq_self h, dropWhile_eq_self fun c hc => h c (List.mem_reverse.1 hc),
    List.reverse_reverse]

/-- Characters none of which is blank are kept. -/
theorem trimChars_eq_self {cs : List Char} (filled : ∀ c ∈ cs, Unicode.isBlank c = false) :
    trimChars cs = cs := dropEnds_eq_self filled

/-- Characters that begin and end with one that is not blank are kept. -/
theorem trimChars_of_ends {cs : List Char} (hhead : ∀ c ∈ cs.head?, Unicode.isBlank c = false)
    (hlast : ∀ c ∈ cs.getLast?, Unicode.isBlank c = false) : trimChars cs = cs := by
  rw [trimChars, dropWhile_of_head hhead, trimEnd,
    dropWhile_of_head (by rwa [List.head?_reverse]), List.reverse_reverse]

theorem trim_trim (s : String) : trim (trim s) = trim s := by
  have hdrop : (trimChars s.toList).dropWhile Unicode.isBlank = trimChars s.toList :=
    dropWhile_trimEnd (List.dropWhile_idempotent _ _)
  have hend : trimEnd (trimChars s.toList) = trimChars s.toList := by
    unfold trimChars trimEnd
    rw [List.reverse_reverse, List.dropWhile_idempotent]
  rw [trim, trim, String.toList_ofList]
  conv_lhs => rw [trimChars, hdrop, hend]

theorem trim_ne_empty_of_mem_filter {pieces : List String} {o : String}
    (h : o ∈ (pieces.map trim).filter (· ≠ "")) : trim o ≠ "" := by
  obtain ⟨ho, hfilled⟩ := List.mem_filter.1 h
  obtain ⟨s, -, rfl⟩ := List.mem_map.1 ho
  rw [trim_trim]
  exact of_decide_eq_true hfilled

/-- The trimmed pieces of a text are not blank. -/
theorem trim_ne_empty_of_mem_splitTrimmed {p : Char → Bool} {s o : String}
    (h : o ∈ splitTrimmed p s) : trim o ≠ "" :=
  trim_ne_empty_of_mem_filter h

end Questionnaire.Text
