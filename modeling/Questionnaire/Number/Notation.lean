import Questionnaire.Number.Shortest
import Questionnaire.Text.Basic

/-!
# Writing numbers

The three ways a number is written: the shortest notation that reads back, a fixed number of places,
and digits in groups of three.

## Main Definitions

* `FloatLayout` - when a floating point number is written positionally
* `Binary64.render` - the notation that reads back
* `groupThousands` - digits in groups of three
* `Binary64.renderFixed` - a fixed number of places
-/

namespace Questionnaire

/-- The layout of a floating point number. -/
structure FloatLayout where
  /-- The least place of a first digit that is written positionally. -/
  lowest : Int
  /-- The greatest place of a first digit that is written positionally. -/
  highest : Int
  /-- The least number of digits of an exponent. -/
  exponentWidth : Nat

/-- Numbers are written positionally from `0.0001` up to sixteen digits before the point, and an
exponent has two digits at least. -/
def FloatLayout.standard : FloatLayout := ⟨-4, 15, 2⟩

/-- The sign of a number that is written: a minus or nothing. -/
def minusIf (negative : Bool) : String := if negative then "-" else ""

/-- The exponent part of a number: the letter, the sign and the digits. -/
def renderExponent (width : Nat) (letter : Char) (e : Int) : String :=
  String.ofList (letter :: (if e < 0 then '-' else '+') ::
    Text.padStart '0' width (Nat.toDigits 10 e.natAbs))

/-- The digits of a decimal with the point after the first `point` of them; a whole number keeps one
zero after the point. -/
def renderPositional (digits : List Char) (point : Int) : String :=
  if point ≤ 0 then
    String.ofList ('0' :: '.' :: (List.replicate (-point).toNat '0' ++ digits))
  else
    let n := point.toNat
    if digits.length ≤ n then
      String.ofList (digits ++ List.replicate (n - digits.length) '0' ++ ['.', '0'])
    else String.ofList (digits.take n ++ '.' :: digits.drop n)

/-- The digits of a decimal with the point after the first of them, followed by an exponent. -/
def renderScientific (width : Nat) (digits : List Char) (place : Int) : String :=
  let body :=
    match digits with
    | [] => []
    | [d] => [d]
    | d :: rest => d :: '.' :: rest
  String.ofList body ++ renderExponent width 'e' place

/-- A decimal under a layout. -/
def Decimal.render (layout : FloatLayout) (d : Decimal) : String :=
  let digits := Nat.toDigits 10 d.digits
  let place : Int := d.exponent + digits.length - 1
  if layout.lowest ≤ place ∧ place ≤ layout.highest then renderPositional digits (place + 1)
  else renderScientific layout.exponentWidth digits place

/-- The shortest notation of a number that reads back. -/
def Binary64.render : Binary64 → String
  | .nan => "nan"
  | .infinity s => minusIf s ++ "inf"
  | .finite s m e =>
    minusIf s ++ if m = 0 then "0.0" else (shortest m e).render FloatLayout.standard

/-- A comma before each group of three digits; `cs` holds the digits backwards. -/
def groupBackwards : List Char → List Char
  | a :: b :: c :: d :: rest => a :: b :: c :: ',' :: groupBackwards (d :: rest)
  | cs => cs

/-- Digits in groups of three, counted from the right. -/
def groupThousands (digits : List Char) : List Char := (groupBackwards digits.reverse).reverse

/-- An integer with its digits in groups of three. -/
def renderGrouped (n : Int) : String :=
  minusIf (n < 0) ++ String.ofList (groupThousands (Nat.toDigits 10 n.natAbs))

/-- The digits before and after the point of a magnitude that is rounded to `places` places, a tie
going to the even digit. -/
def fixedDigits (places : Nat) (x : Rat) : List Char × List Char :=
  let scaled := roundDiv (x.num.natAbs * Nat.pow 10 places) x.den
  let digits := Text.padStart '0' (places + 1) (Nat.toDigits 10 scaled)
  (digits.take (digits.length - places), digits.drop (digits.length - places))

/-- A number with a fixed number of places and its digits in groups of three. -/
def Binary64.renderFixed (places : Nat) : Binary64 → String
  | .nan => "nan"
  | .infinity s => minusIf s ++ "inf"
  | .finite s m e =>
    let parts := fixedDigits places (magnitude m e)
    minusIf s ++ String.ofList (groupThousands parts.1 ++
      if places = 0 then [] else '.' :: parts.2)

end Questionnaire
