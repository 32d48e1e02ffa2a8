import Questionnaire.Unicode.Case

/-!
# Matching without regard to case

## Main Definitions

* `Text.dropWord?` - what follows a word at the start of a text
* `Text.sameWord` - equality of two texts without regard to case
-/

namespace Questionnaire.Text

/-- What follows `word` at the start of a text, where letters are compared without regard to
case. -/
def dropWord? : List Char → List Char → Option (List Char)
  | [], cs => some cs
  | _ :: _, [] => none
  | w :: word, c :: cs => if Unicode.sameLetter w c then dropWord? word cs else none

/-- Two texts have the same letters without regard to case. -/
def sameWord (word cs : List Char) : Bool := dropWord? word cs == some []

theorem dropWord?_length {word cs rest : List Char} (h : dropWord? word cs = some rest) :
    cs.length = word.length + rest.length := by
  induction word generalizing cs with
  | nil => simp only [dropWord?, Option.some.injEq] at h; simp [h]
  | cons w word ih =>
    cases cs with
    | nil => simp [dropWord?] at h
    | cons c cs =>
      simp only [dropWord?] at h
      split at h
      · simp only [List.length_cons, ih h]; omega
      · simp at h

end Questionnaire.Text
