import Questionnaire.Number.Reading
import Questionnaire.Text.Basic
import Questionnaire.Text.CaseFree

/-!
# Yes and no

An answer to a yes-or-no question is read from its first word, so that details may follow; without
such a word a leading number is a count.

## Main Definitions

* `Answer.readYesNo?` - the truth value of an answer
-/

namespace Questionnaire.Answer

/-- The words for yes. -/
def yesWords : List String := ["כן", "yes", "y", "true", "חיובי"]

/-- The words for no. -/
def noWords : List String := ["לא", "no", "n", "false", "שלילי"]

/-- The quotes that may stand before an answer. -/
def leadingQuotes : List Char := ['"', '\'', '“', '”', '׳', '״']

/-- The punctuation that may follow the first word of an answer. -/
def boundaryMarks : List Char :=
  [',', '.', ':', ';', '!', '?', '(', ')', '[', ']', '\x7b', '\x7d', '\'', '"', '“', '”', '-',
    '–', '—']

/-- A word of an answer ends at the end of the answer, at a blank and at punctuation. -/
def endsWord : List Char → Bool
  | [] => true
  | c :: _ => Unicode.isBlank c || boundaryMarks.contains c

/-- The characters that `word` takes at the start of a text, if it ends there. -/
def takeWord? (word cs : List Char) : Option (List Char) :=
  match Text.dropWord? word cs with
  | some rest => if endsWord rest then some (cs.take word.length) else none
  | none => none

/-- An answer in lower case without the quotes before it and the blanks around it. -/
def headOf (answer : String) : List Char :=
  let cs := (Unicode.lower (Text.trim answer)).toList
  Text.trimChars (cs.dropWhile fun c => Unicode.isBlank c || leadingQuotes.contains c)

/-- The truth value that the first word of a text stands for. -/
def firstWord? (cs : List Char) : Option Bool :=
  ((yesWords ++ noWords).findSome? fun w => takeWord? w.toList cs).map fun taken =>
    yesWords.contains (Unicode.lower (String.ofList taken))

/-- The truth value of an answer: that of its first word, or whether its leading number is not
zero. -/
def readYesNo? (answer : String) : Option Bool :=
  let head := headOf answer
  match firstWord? head with
  | some b => some b
  | none => (Numeral.scanSigned? head).map fun x => !x.isZero

end Questionnaire.Answer
