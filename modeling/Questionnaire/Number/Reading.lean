import Questionnaire.Number.Binary64
import Questionnaire.Unicode.Blank
import Questionnaire.Unicode.Digit

/-!
# Reading numbers

Two notations are read: a plain numeral (digits of any script with an optional fraction), which is
searched for inside other text, and the full notation of a floating point number, which has to be
the whole text.

## Main Definitions

* `Numeral.scan?` - the longest plain numeral at the start of a text
* `Binary64.read?` - the number that a whole text denotes

## Design Notes

An integer in a text may have 4300 digits at most.  The readers of integers report a longer one, and
the notations here, which round, take any number of digits.

The full notation takes an optional sign, digits with an optional point, an optional exponent, the
words for infinity and not-a-number in any case, and underscores between digits.
-/

namespace Questionnaire

/-- The value of a row of digits of any script. -/
def digitsValue (cs : List Char) : Nat :=
  cs.foldl (fun n c => 10 * n + (Unicode.digit? c).getD 0) 0

/-- The greatest number of digits of an integer in a text, leading zeros counted. -/
def maxDigits : Nat := 4300

/-- The greatest count that a text gives of characters, digits or positions. -/
def maxCount : Nat := 9223372036854775807

/-- A plain numeral: the digits before the point and those after it. -/
structure Numeral where
  /-- The digits before the point. -/
  whole : List Char
  /-- The digits after the point, none without a point. -/
  fraction : List Char

namespace Numeral

/-- The nearest number to a numeral. -/
def toBinary64 (negative : Bool) (n : Numeral) : Binary64 :=
  .ofDecimal negative (digitsValue (n.whole ++ n.fraction)) (-(n.fraction.length : Int))

/-- The characters of a numeral. -/
def chars (n : Numeral) : List Char :=
  n.whole ++ if n.fraction.isEmpty then [] else '.' :: n.fraction

/-- The longest plain numeral at the start of a text, and what follows it.  A point belongs to the
numeral when a digit follows it. -/
def scan? (cs : List Char) : Option (Numeral × List Char) :=
  let whole := cs.takeWhile Unicode.isDigit
  if whole.isEmpty then none
  else
    match cs.dropWhile Unicode.isDigit with
    | '.' :: rest =>
      let fraction := rest.takeWhile Unicode.isDigit
      if fraction.isEmpty then some (⟨whole, []⟩, '.' :: rest)
      else some (⟨whole, fraction⟩, rest.dropWhile Unicode.isDigit)
    | rest => some (⟨whole, []⟩, rest)

/-- A plain numeral at the start of a text after an optional minus, as a number. -/
def scanSigned? : List Char → Option Binary64
  | '-' :: rest => (scan? rest).map fun p => p.1.toBinary64 true
  | cs => (scan? cs).map fun p => p.1.toBinary64 false

/-- The first plain numeral of a text with an optional minus before it, as a number. -/
def search? : List Char → Option Binary64
  | [] => none
  | c :: rest =>
    match scanSigned? (c :: rest) with
    | some x => some x
    | none => search? rest

end Numeral

namespace Binary64

/-- A blank that may surround the notation of a number. -/
def isMargin (c : Char) : Bool :=
  if c.toNat < 128 then c == ' ' || (9 ≤ c.toNat && c.toNat ≤ 13) else Unicode.isBlank c

/-- The text without the underscores between digits, if there are no others.  `afterDigit` and
`afterUnderscore` say what precedes the text. -/
def joinDigits? (afterDigit afterUnderscore : Bool) : List Char → Option (List Char)
  | [] => if afterUnderscore then none else some []
  | '_' :: rest => if afterDigit then joinDigits? false true rest else none
  | c :: rest =>
    if afterUnderscore && !Unicode.isDigit c then none
    else (joinDigits? (Unicode.isDigit c) false rest).map (c :: ·)

/-- The optional sign of a text and the rest. -/
def readSign : List Char → Bool × List Char
  | '-' :: rest => (true, rest)
  | '+' :: rest => (false, rest)
  | cs => (false, cs)

/-- The exponent that a whole text denotes: the letter, an optional sign and digits, or nothing. -/
def readExponent? : List Char → Option Int
  | [] => some 0
  | c :: rest =>
    if c = 'e' ∨ c = 'E' then
      let (negative, digits) := readSign rest
      if digits.isEmpty || !digits.all Unicode.isDigit then none
      else some (if negative then -(digitsValue digits : Int) else digitsValue digits)
    else none

/-- The optional fraction of a text and the rest. -/
def readFraction : List Char → List Char × List Char
  | '.' :: rest => (rest.takeWhile Unicode.isDigit, rest.dropWhile Unicode.isDigit)
  | cs => ([], cs)

/-- The decimal that a whole text without a sign denotes, as digits and a power of ten. -/
def readDecimal? (cs : List Char) : Option (Nat × Int) :=
  let whole := cs.takeWhile Unicode.isDigit
  let (fraction, rest) := readFraction (cs.dropWhile Unicode.isDigit)
  if whole.isEmpty && fraction.isEmpty then none
  else (readExponent? rest).map fun e => (digitsValue (whole ++ fraction), e - fraction.length)

/-- An ASCII letter in lower case. -/
def asciiLower (cs : List Char) : List Char := cs.map Char.toLower

/-- The number that a whole text denotes. -/
def read? (s : String) : Option Binary64 :=
  let body := ((s.toList.dropWhile isMargin).reverse.dropWhile isMargin).reverse
  match joinDigits? false false body with
  | none => none
  | some cs =>
    let (negative, rest) := readSign cs
    let word := asciiLower rest
    if word = "inf".toList ∨ word = "infinity".toList then some (.infinity negative)
    else if word = "nan".toList then some .nan
    else (readDecimal? rest).map fun d => ofDecimal negative d.1 d.2

end Binary64

end Questionnaire
