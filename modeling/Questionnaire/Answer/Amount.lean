import Questionnaire.Json.Reading
import Questionnaire.Number.Reading

/-!
# Amounts

The number in an answer: the first one, without regard to currency signs and commas.

## Main Definitions

* `Answer.readAmount?` - the number in an answer
-/

namespace Questionnaire.Answer

/-- Characters that are left out when a number is read. -/
def ignoredMarks : List Char := ['₪', '$', '€', '£', ',']

/-- An answer as it is searched for a number. -/
def amountText (answer : String) : String :=
  Text.trim (Text.collapse (Text.without ignoredMarks.contains answer))

/-- The first number in an answer, an integer if it is one. -/
def readAmount? (answer : String) : Option Json :=
  (Numeral.search? (amountText answer).toList).map Json.ofWhole

end Questionnaire.Answer
