import Mathlib.Data.List.TakeWhile
import Questionnaire.Answer.Amount
import Questionnaire.Proofs.Lookup
import Questionnaire.Proofs.Number.Scanning
import Questionnaire.Proofs.Number.Whole
import Questionnaire.Proofs.Text.Characters

/-!
# Whole numbers in answers

An integer may be written with digits of any script, a minus before them, and commas, currency signs
and blanks around and between them.  Whatever the spelling is, the reader gets to the digits, and
they go through the binary format.  So an integer is read as itself exactly if the format holds it:
every integer of at most 53 bits, and longer ones with zeros behind these bits.

## Main Definitions

* `Answer.Spelling` - a way of writing an integer in an answer
* `Answer.Spelling.ofSummary`, `Answer.Spelling.plain` - the way in which an integer is shown, and
  its digits alone

## Main Statements

* `Text.trimChars_collapseFrom` - blanks around a word are left out
* `Answer.amountText_spelling` - what is searched for a number
* `Answer.readAmount?_spelling_iff` - when an integer is read as itself
-/

namespace Questionnaire

/-! ## Blanks around a word -/

namespace Text

variable {cs word lead trail : List Char}

theorem collapseFrom_blank (blank : ∀ c ∈ cs, Unicode.isBlank c = true) (inRun : Bool) :
    ∀ c ∈ collapseFrom inRun cs, Unicode.isBlank c = true := by
  induction cs generalizing inRun with
  | nil => exact nofun
  | cons c rest ih =>
    obtain ⟨hc, hrest⟩ := List.forall_mem_cons.1 blank
    rw [collapseFrom, if_pos hc]
    split
    · exact ih hrest true
    · exact List.forall_mem_cons.2 ⟨by decide, ih hrest true⟩

/-- What is not blank is kept as it is, and ends a run of blanks. -/
theorem collapseFrom_word (filled : ∀ c ∈ word, Unicode.isBlank c = false) (hne : word ≠ [])
    (inRun : Bool) (rest : List Char) :
    collapseFrom inRun (word ++ rest) = word ++ collapseFrom false rest := by
  induction word generalizing inRun with
  | nil => exact absurd rfl hne
  | cons c word ih =>
    obtain ⟨hc, hword⟩ := List.forall_mem_cons.1 filled
    rw [List.cons_append, collapseFrom, hc, if_neg Bool.false_ne_true, List.cons_append]
    cases word with
    | nil => rfl
    | cons d word => rw [ih hword (List.cons_ne_nil _ _)]

theorem dropWhile_word (filled : ∀ c ∈ word, Unicode.isBlank c = false) (hne : word ≠ [])
    (rest : List Char) : (word ++ rest).dropWhile Unicode.isBlank = word ++ rest := by
  cases word with
  | nil => exact absurd rfl hne
  | cons c word =>
    rw [List.cons_append, List.dropWhile_cons_of_neg (by rw [filled c List.mem_cons_self]; simp)]

theorem dropWhile_collapseFrom (blank : ∀ c ∈ lead, Unicode.isBlank c = true)
    (filled : ∀ c ∈ word, Unicode.isBlank c = false) (hne : word ≠ []) (inRun : Bool)
    (rest : List Char) : (collapseFrom inRun (lead ++ (word ++ rest))).dropWhile Unicode.isBlank =
      word ++ collapseFrom false rest := by
  induction lead generalizing inRun with
  | nil =>
    rw [List.nil_append, collapseFrom_word filled hne]
    exact dropWhile_word filled hne _
  | cons c lead ih =>
    obtain ⟨hc, hlead⟩ := List.forall_mem_cons.1 blank
    rw [List.cons_append, collapseFrom, if_pos hc]
    split
    · exact ih hlead true
    · rw [List.dropWhile_cons_of_pos (by decide)]
      exact ih hlead true

theorem trimEnd_word (blank : ∀ c ∈ trail, Unicode.isBlank c = true)
    (filled : ∀ c ∈ word, Unicode.isBlank c = false) (hne : word ≠ []) :
    trimEnd (word ++ trail) = word := by
  have hdrop : word.reverse.dropWhile Unicode.isBlank = word.reverse := by
    have hfilled : ∀ c ∈ word.reverse, Unicode.isBlank c = false := fun c hc =>
      filled c (List.mem_reverse.1 hc)
    simpa using dropWhile_word hfilled (by rwa [ne_eq, List.reverse_eq_nil_iff]) []
  rw [trimEnd, List.reverse_append,
    List.dropWhile_append_of_pos fun c hc => blank c (List.mem_reverse.1 hc), hdrop,
    List.reverse_reverse]

/-- Blanks around a word are left out. -/
theorem trimChars_collapseFrom (blankLead : ∀ c ∈ lead, Unicode.isBlank c = true)
    (blankTrail : ∀ c ∈ trail, Unicode.isBlank c = true)
    (filled : ∀ c ∈ word, Unicode.isBlank c = false) (hne : word ≠ []) :
    trimChars (collapseFrom false (lead ++ (word ++ trail))) = word := by
  rw [trimChars, dropWhile_collapseFrom blankLead filled hne]
  exact trimEnd_word (collapseFrom_blank blankTrail false) filled hne

end Text

/-! ## Numerals without a fraction -/

namespace Numeral

variable {digits : List Char}

theorem scan?_of_digits (hne : digits ≠ []) (hdigits : ∀ c ∈ digits, Unicode.isDigit c = true) :
    scan? digits = some (⟨digits, []⟩, []) := by
  have htake : digits.takeWhile Unicode.isDigit = digits := List.takeWhile_eq_self_iff.2 hdigits
  have hdrop : digits.dropWhile Unicode.isDigit = [] := List.dropWhile_eq_nil_iff.2 hdigits
  unfold scan?
  rw [htake, hdrop, if_neg (by simpa using hne)]

/-- Digits that make up a text, with an optional minus before them, are what is found in it. -/
theorem search?_of_digits (negative : Bool) (hne : digits ≠ [])
    (hdigits : ∀ c ∈ digits, Unicode.isDigit c = true) :
    search? ((if negative then ['-'] else []) ++ digits) =
      some (.ofDecimal negative (digitsValue digits) 0) := by
  have hread : toBinary64 negative ⟨digits, []⟩ = .ofDecimal negative (digitsValue digits) 0 := by
    simp [toBinary64]
  have hscan := scan?_of_digits hne hdigits
  obtain ⟨c, cs, rfl⟩ := List.exists_cons_of_ne_nil hne
  rw [search?_of_scan? negative (hdigits c List.mem_cons_self) hscan, hread]

end Numeral

/-! ## Spellings -/

namespace Answer

/-- A character that may stand around a number: a blank, or one of the marks that are left out. -/
def isAround (c : Char) : Bool := Unicode.isBlank c || ignoredMarks.contains c

/-- A character that may stand within a number: a digit, or one of the marks. -/
def isWithin (c : Char) : Bool := Unicode.isDigit c || ignoredMarks.contains c

/-- A way of writing an integer in an answer. -/
structure Spelling (n : Int) where
  /-- What stands before the number. -/
  lead : List Char
  /-- Whether the number has a minus. -/
  negative : Bool
  /-- The digits, and the marks between and next to them. -/
  body : List Char
  /-- What stands behind the number. -/
  trail : List Char
  /-- Only blanks and marks stand before the number. -/
  around_lead : ∀ c ∈ lead, isAround c = true
  /-- The number is made of digits and marks. -/
  within_body : ∀ c ∈ body, isWithin c = true
  /-- Only blanks and marks stand behind the number. -/
  around_trail : ∀ c ∈ trail, isAround c = true
  /-- There is a digit. -/
  digits_ne_nil : body.filter Unicode.isDigit ≠ []
  /-- The digits denote the magnitude of the integer, and the minus is its sign. -/
  value : (if negative then -(digitsValue (body.filter Unicode.isDigit) : Int)
    else digitsValue (body.filter Unicode.isDigit)) = n

namespace Spelling

variable {n : Int}

/-- The digits. -/
def digits (w : Spelling n) : List Char := w.body.filter Unicode.isDigit

/-- The minus, if there is one. -/
def sign (w : Spelling n) : List Char := if w.negative then ['-'] else []

/-- The answer. -/
def text (w : Spelling n) : String := .ofList (w.lead ++ (w.sign ++ w.body) ++ w.trail)

theorem isDigit_of_mem_digits (w : Spelling n) : ∀ c ∈ w.digits, Unicode.isDigit c = true :=
  fun _ hc => (List.mem_filter.1 hc).2

theorem natAbs_eq (w : Spelling n) : n.natAbs = digitsValue w.digits := by
  refine (congrArg Int.natAbs w.value).symm.trans ?_
  rw [digits]
  split
  · rw [Int.natAbs_neg, Int.natAbs_natCast]
  · exact Int.natAbs_natCast _

end Spelling

theorem not_mark_of_digit {c : Char} (h : Unicode.isDigit c = true) :
    ignoredMarks.contains c = false := by
  refine Bool.eq_false_iff.2 fun hmark => ?_
  have hall : ignoredMarks.all (!Unicode.isDigit ·) = true := by decide +kernel
  have hnot := List.all_eq_true.1 hall c (List.contains_iff_mem.1 hmark)
  rw [h] at hnot
  cases hnot

/-- What is left of the characters around a number are blanks. -/
theorem isBlank_of_around {cs : List Char} (around : ∀ c ∈ cs, isAround c = true) :
    ∀ c ∈ cs.filter (!ignoredMarks.contains ·), Unicode.isBlank c = true := by
  intro c hc
  obtain ⟨hmem, hmark⟩ := List.mem_filter.1 hc
  have haround := around c hmem
  rw [isAround, Bool.or_eq_true] at haround
  refine haround.resolve_right fun h => ?_
  rw [h] at hmark
  cases hmark

/-- What is left of a number are its digits. -/
theorem filter_within {cs : List Char} (within : ∀ c ∈ cs, isWithin c = true) :
    cs.filter (!ignoredMarks.contains ·) = cs.filter Unicode.isDigit := by
  refine List.filter_congr fun c hc => ?_
  cases hdigit : Unicode.isDigit c with
  | true => rw [not_mark_of_digit hdigit, Bool.not_false]
  | false =>
    have hwithin := within c hc
    rw [isWithin, hdigit, Bool.false_or] at hwithin
    rw [hwithin, Bool.not_true]

variable {n : Int}

/-- The minus and the digits are searched for a number. -/
theorem amountText_spelling (w : Spelling n) : (amountText w.text).toList = w.sign ++ w.digits := by
  have hfilter : w.text.toList.filter (!ignoredMarks.contains ·) =
      w.lead.filter (!ignoredMarks.contains ·) ++
        ((w.sign ++ w.digits) ++ w.trail.filter (!ignoredMarks.contains ·)) := by
    have hsign : w.sign.filter (!ignoredMarks.contains ·) = w.sign := by
      rw [Spelling.sign]
      cases w.negative <;> decide
    rw [Spelling.text, String.toList_ofList, List.filter_append, List.filter_append,
      List.filter_append, hsign, filter_within w.within_body, List.append_assoc]
    rfl
  have filled : ∀ c ∈ w.sign ++ w.digits, Unicode.isBlank c = false := by
    intro c hc
    rcases List.mem_append.1 hc with hc | hc
    · rw [Spelling.sign] at hc
      split at hc
      · rw [List.mem_singleton.1 hc]
        decide
      · cases hc
    · exact Unicode.isBlank_of_digit (w.isDigit_of_mem_digits c hc)
  rw [amountText, Text.trim, Text.collapse, Text.without, String.toList_ofList,
    String.toList_ofList, String.toList_ofList, hfilter]
  refine Text.trimChars_collapseFrom (isBlank_of_around w.around_lead)
    (isBlank_of_around w.around_trail) filled fun hnil => ?_
  exact w.digits_ne_nil (List.append_eq_nil_iff.1 hnil).2

/-- An integer is read as itself exactly if the format holds it. -/
theorem readAmount?_eq_some_iff (w : Spelling n) :
    readAmount? w.text = some (.int n) ↔ Binary64.IsExact n.natAbs := by
  have hsearch : Numeral.search? (amountText w.text).toList =
      some (.ofDecimal w.negative (digitsValue w.digits) 0) := by
    rw [amountText_spelling]
    exact Numeral.search?_of_digits w.negative w.digits_ne_nil w.isDigit_of_mem_digits
  have hvalue : (if w.negative then -(digitsValue w.digits : Int) else digitsValue w.digits) = n :=
    w.value
  rw [readAmount?, hsearch, Option.map_some, Option.some.injEq, w.natAbs_eq,
    ← Binary64.toInt?_ofDecimal_iff w.negative, hvalue]
  unfold Json.ofWhole
  split
  · next m hm => rw [hm, Option.some.injEq, Json.int.injEq]
  · next hnone =>
    rw [hnone]
    exact iff_of_false nofun nofun

/-! ## The way in which an integer is shown -/

theorem isWithin_of_digit {c : Char} (h : Unicode.isDigit c = true) : isWithin c = true := by
  rw [isWithin, h, Bool.true_or]

/-- Digits in groups are digits and marks, and without the marks the digits are left. -/
theorem filter_groupBackwards {cs : List Char} (hcs : ∀ c ∈ cs, Unicode.isDigit c = true) :
    (∀ c ∈ groupBackwards cs, isWithin c = true) ∧
      (groupBackwards cs).filter Unicode.isDigit = cs := by
  fun_induction groupBackwards cs with
  | case1 a b c d rest ih =>
    obtain ⟨ha, hb, hc, hrest⟩ : Unicode.isDigit a = true ∧ Unicode.isDigit b = true ∧
        Unicode.isDigit c = true ∧ ∀ x ∈ d :: rest, Unicode.isDigit x = true := by
      simpa using hcs
    obtain ⟨within, hfilter⟩ := ih hrest
    constructor
    · intro x hx
      simp only [List.mem_cons] at hx
      rcases hx with rfl | rfl | rfl | rfl | hx
      · exact isWithin_of_digit ha
      · exact isWithin_of_digit hb
      · exact isWithin_of_digit hc
      · decide +kernel
      · exact within x hx
    · rw [List.filter_cons_of_pos ha, List.filter_cons_of_pos hb, List.filter_cons_of_pos hc,
        List.filter_cons_of_neg (by decide +kernel), hfilter]
  | case2 cs hshort =>
    exact ⟨fun c hc => isWithin_of_digit (hcs c hc), List.filter_eq_self.2 hcs⟩

theorem filter_groupThousands {cs : List Char} (hcs : ∀ c ∈ cs, Unicode.isDigit c = true) :
    (∀ c ∈ groupThousands cs, isWithin c = true) ∧
      (groupThousands cs).filter Unicode.isDigit = cs := by
  have hreverse : ∀ c ∈ cs.reverse, Unicode.isDigit c = true := fun c hc =>
    hcs c (List.mem_reverse.1 hc)
  obtain ⟨within, hfilter⟩ := filter_groupBackwards hreverse
  constructor
  · exact fun c hc => within c (List.mem_reverse.1 hc)
  · rw [groupThousands, List.filter_reverse, hfilter, List.reverse_reverse]

theorem isDigit_of_mem_natAbs (n : Int) :
    ∀ c ∈ Nat.toDigits 10 n.natAbs, Unicode.isDigit c = true :=
  fun _ hc => Unicode.isDigit_of_isDigit (isDigit_of_mem_toDigits hc)

namespace Spelling

theorem around_nil : ∀ c ∈ ([] : List Char), isAround c = true := List.forall_mem_nil _

variable {body : List Char}

theorem digits_ne_nil_of_toDigits (h : body.filter Unicode.isDigit = Nat.toDigits 10 n.natAbs) :
    body.filter Unicode.isDigit ≠ [] := by
  rw [h]
  exact Nat.toDigits_ne_nil

theorem value_of_toDigits (h : body.filter Unicode.isDigit = Nat.toDigits 10 n.natAbs) :
    (if decide (n < 0) = true then -(digitsValue (body.filter Unicode.isDigit) : Int)
      else digitsValue (body.filter Unicode.isDigit)) = n := by
  rw [h, digitsValue_toDigits]
  by_cases hneg : n < 0
  · rw [decide_eq_true hneg, if_pos rfl]
    omega
  · rw [decide_eq_false hneg, if_neg Bool.false_ne_true]
    omega

/-- An integer with nothing around it: its digits and the marks between them, and a minus before
them if it is negative. -/
def ofBody (n : Int) (body : List Char) (within : ∀ c ∈ body, isWithin c = true)
    (h : body.filter Unicode.isDigit = Nat.toDigits 10 n.natAbs) : Spelling n where
  lead := []
  negative := n < 0
  body := body
  trail := []
  around_lead := around_nil
  within_body := within
  around_trail := around_nil
  digits_ne_nil := digits_ne_nil_of_toDigits h
  value := value_of_toDigits h

theorem within_summary (n : Int) :
    ∀ c ∈ groupThousands (Nat.toDigits 10 n.natAbs), isWithin c = true :=
  (filter_groupThousands (isDigit_of_mem_natAbs n)).1

theorem filter_summary (n : Int) :
    (groupThousands (Nat.toDigits 10 n.natAbs)).filter Unicode.isDigit =
      Nat.toDigits 10 n.natAbs :=
  (filter_groupThousands (isDigit_of_mem_natAbs n)).2

/-- The way in which an integer is shown: its digits in groups of three. -/
def ofSummary (n : Int) : Spelling n :=
  ofBody n (groupThousands (Nat.toDigits 10 n.natAbs)) (within_summary n) (filter_summary n)

theorem text_ofSummary (n : Int) : (ofSummary n).text = (Json.int n).summary := by
  have htext : (ofSummary n).text = String.ofList ((if decide (n < 0) = true then ['-'] else []) ++
      groupThousands (Nat.toDigits 10 n.natAbs)) :=
    congrArg String.ofList (List.append_nil _)
  rw [htext, String.ofList_append, Json.summary, renderGrouped, minusIf]
  split <;> rfl

end Spelling

/-- Up to 53 bits every integer is read as itself. -/
theorem readAmount?_of_le (w : Spelling n) (h : n.natAbs ≤ 2 ^ 53) :
    readAmount? w.text = some (.int n) :=
  (readAmount?_eq_some_iff w).2 (Binary64.isExact_of_le h)

/-- However an integer is written in an answer, and in particular as it is shown, it is read as
itself exactly if the format holds it. -/
theorem readAmount?_spelling_iff (n : Int) :
    (∀ w : Spelling n, readAmount? w.text = some (.int n) ↔ Binary64.IsExact n.natAbs) ∧
      (readAmount? (Json.int n).summary = some (.int n) ↔ Binary64.IsExact n.natAbs) := by
  refine ⟨readAmount?_eq_some_iff, ?_⟩
  rw [← Spelling.text_ofSummary]
  exact readAmount?_eq_some_iff _

theorem isWithin_of_mem_natAbs (n : Int) : ∀ c ∈ Nat.toDigits 10 n.natAbs, isWithin c = true :=
  fun c hc => isWithin_of_digit (isDigit_of_mem_natAbs n c hc)

theorem filter_natAbs (n : Int) :
    (Nat.toDigits 10 n.natAbs).filter Unicode.isDigit = Nat.toDigits 10 n.natAbs :=
  List.filter_eq_self.2 (isDigit_of_mem_natAbs n)

/-- An integer that is written with its digits alone. -/
def Spelling.plain (n : Int) : Spelling n :=
  ofBody n (Nat.toDigits 10 n.natAbs) (isWithin_of_mem_natAbs n) (filter_natAbs n)

/-- An integer of one bit too many is read as its neighbour. -/
theorem readAmount?_beyond : (Spelling.plain 9007199254740993).text = "9007199254740993" ∧
    readAmount? (Spelling.plain 9007199254740993).text = some (.int 9007199254740992) := by
  have hread : ∃ v ∈ readAmount? "9007199254740993", v = .int 9007199254740992 := by
    decide +kernel
  obtain ⟨v, hv, rfl⟩ := hread
  have htext : (Spelling.plain 9007199254740993).text = "9007199254740993" := by decide +kernel
  exact ⟨htext, htext ▸ hv⟩

end Answer

end Questionnaire
