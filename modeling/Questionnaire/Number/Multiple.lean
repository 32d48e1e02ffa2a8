import Questionnaire.Number.Reading
import Questionnaire.Text.Basic

/-!
# Exact multiples

Whether one number is a multiple of another is decided on their decimal notations: by the remainder
of an exact division.

## Main Definitions

* `DecimalText` - what a decimal notation denotes
* `Remainder` - what a division leaves
* `DecimalText.remainder` - what the division of a number by a step leaves

## Design Notes

A notation may be neither too large nor too fine.  A quotient of more than 28 digits is not
computed, and the division leaves nothing defined then.  A remainder is rounded to 28 digits and to
the least place of a result, half to even, so the smallest ones count as zero and the greatest ones
have no rounded form.
-/

namespace Questionnaire

/-- What a decimal notation denotes, its sign left out. -/
inductive DecimalText where
  /-- The value `digits * 10 ^ exponent`. -/
  | finite (digits : Nat) (exponent : Int)
  /-- An infinity. -/
  | infinite
  /-- Not-a-number. -/
  | undefined

namespace DecimalText

/-- The places of a decimal: one more than the exponent of its first digit.  Zero has one digit. -/
def places (digits : Nat) (exponent : Int) : Int := digits.repr.length + exponent

/-- The greatest number of places of a notation. -/
def maxPlaces : Int := 1000000000000000000

/-- The least exponent of a notation. -/
def minExponent : Int := -1999999999999999997

/-- The decimal that a notation gives, if it is neither too large nor too fine. -/
def ofDecimal? (digits : Nat) (exponent : Int) : Option DecimalText :=
  if places digits exponent ≤ maxPlaces ∧ minExponent ≤ exponent then
    some (.finite digits exponent)
  else none

/-- The digits that may follow the word for not-a-number. -/
def isPayload (cs : List Char) : Bool := cs.all Unicode.isDigit

/-- What a whole text denotes.  Underscores are left out wherever they stand. -/
def read? (s : String) : Option DecimalText :=
  let cs := (Text.trimChars s.toList).filter (· ≠ '_')
  let body := (Binary64.readSign cs).2
  let word := Binary64.asciiLower body
  if word = "inf".toList ∨ word = "infinity".toList then some .infinite
  else if word.take 3 = "nan".toList ∧ isPayload (word.drop 3) then some .undefined
  else if word.take 4 = "snan".toList ∧ isPayload (word.drop 4) then some .undefined
  else (Binary64.readDecimal? body).bind fun d => ofDecimal? d.1 d.2

end DecimalText

/-- What a division leaves. -/
inductive Remainder where
  /-- Nothing. -/
  | zero
  /-- Another number than zero. -/
  | nonzero
  /-- A number that is too large for a result. -/
  | tooLarge
  /-- The division is not defined, or not computed. -/
  | undefined
  deriving DecidableEq, Repr

namespace Remainder

/-- The greatest number of digits of a result. -/
def precision : Nat := 28

/-- The greatest number of places of a result. -/
def maxPlaces : Int := 1000000

/-- The least place of a result. -/
def leastPlace : Int := -1000026

/-- A positive decimal is at most half a unit of the least place, so that it rounds to zero. -/
def vanishes (digits : Nat) (exponent : Int) : Bool :=
  let n := DecimalText.places digits exponent
  n < leastPlace || (n == leastPlace && 2 * digits ≤ Nat.pow 10 digits.repr.length)

/-- A positive decimal has too many places after it is rounded to the precision.  One with as many
places as a result may have gets one more when all digits it keeps are nines and the rest is half a
unit or more. -/
def overflows (digits : Nat) (exponent : Int) : Bool :=
  let n := DecimalText.places digits exponent
  maxPlaces < n ||
    (n == maxPlaces &&
      (2 * Nat.pow 10 precision - 1) * Nat.pow 10 (digits.repr.length - precision) ≤ 2 * digits)

/-- What is left when a decimal is left before rounding. -/
def ofDecimal (digits : Nat) (exponent : Int) : Remainder :=
  if digits = 0 ∨ vanishes digits exponent = true then .zero
  else if overflows digits exponent then .tooLarge
  else .nonzero

end Remainder

namespace DecimalText

/-- What the division of `a * 10 ^ e` by `b * 10 ^ f` leaves, if its quotient is within the
precision. -/
def remainderFinite (a : Nat) (e : Int) (b : Nat) (f : Int) : Remainder :=
  if b = 0 then .undefined
  else if a = 0 then .zero
  else
    let ahead := places a e - places b f
    if ahead < 0 then .ofDecimal a e
    else if Remainder.precision < ahead then .undefined
    else
      let g := min e f
      let num := a * Nat.pow 10 (e - g).toNat
      let den := b * Nat.pow 10 (f - g).toNat
      if num / den < Nat.pow 10 Remainder.precision then .ofDecimal (num % den) g else .undefined

/-- What the division of a number by a step leaves.  An infinite step leaves the number. -/
def remainder : DecimalText → DecimalText → Remainder
  | .finite a e, .finite b f => remainderFinite a e b f
  | .finite a e, .infinite => .ofDecimal a e
  | _, _ => .undefined

end DecimalText

end Questionnaire
