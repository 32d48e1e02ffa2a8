import Questionnaire.Number.Binary64

/-!
# Shortest decimals

The shortest decimal of a binary number is the one with the fewest digits that reads back as the
number, and of those the nearest to it.

## Main Definitions

* `Decimal` - `digits * 10 ^ exponent`
* `Binary64.shortest` - the shortest decimal of a positive finite number

## Design Notes

For each number of digits the two neighbours of the value on that decimal grid are tested; if any
point of a grid reads back, one of the value's neighbours on that grid does.  Seventeen digits
always suffice.
-/

namespace Questionnaire

/-- The decimal `digits * 10 ^ exponent`. -/
structure Decimal where
  /-- The digits as one natural. -/
  digits : Nat
  /-- The power of ten that scales them. -/
  exponent : Int
  deriving DecidableEq, Repr

namespace Decimal

/-- The exact value of a decimal. -/
def value (d : Decimal) : Rat := (d.digits : Rat) * (10 : Rat) ^ d.exponent

/-- The digits without the zeros at their end; `fuel` bounds their number. -/
def stripZeros : Nat → Decimal → Decimal
  | 0, d => d
  | fuel + 1, d =>
    if d.digits ≠ 0 ∧ d.digits % 10 = 0 then stripZeros fuel ⟨d.digits / 10, d.exponent + 1⟩ else d

/-- The same value with the fewest digits. -/
def reduce (d : Decimal) : Decimal := stripZeros d.digits.repr.length d

end Decimal

namespace Binary64

/-- `num / den` divided by `10 ^ g`, as a quotient of naturals. -/
def scaleDownTen (num den : Nat) (g : Int) : Nat × Nat :=
  if 0 ≤ g then (num, den * Nat.pow 10 g.toNat) else (num * Nat.pow 10 (-g).toNat, den)

/-- The place of the first digit of `num / den`, searched upwards from `place`. -/
def leadingPlaceFrom (num den : Nat) : Nat → Int → Int
  | 0, place => place
  | fuel + 1, place =>
    let s := scaleDownTen num den (place + 1)
    if s.2 ≤ s.1 then leadingPlaceFrom num den fuel (place + 1) else place

/-- The place of the first digit of `num / den`: the power of ten below it. -/
def leadingPlace (num den : Nat) : Int :=
  let bits : Int := (num.log2 : Int) - den.log2 - 1
  leadingPlaceFrom num den 8 (Int.fdiv (bits * 30103) 100000 - 2)

/-- Of the neighbours of `num / den` on the grid `10 ^ g`, the nearest that reads back as `x`. -/
def readBackAt? (x : Binary64) (num den : Nat) (g : Int) : Option Decimal :=
  let s := scaleDownTen num den g
  let low := s.1 / s.2
  let lowReads := ofDecimal false low g == x
  let highReads := ofDecimal false (low + 1) g == x
  match lowReads, highReads with
  | false, false => none
  | true, false => some ⟨low, g⟩
  | false, true => some ⟨low + 1, g⟩
  | true, true => some ⟨roundDiv s.1 s.2, g⟩

/-- The decimal with the fewest digits, from `17 - more` on, that reads back as `x`. -/
def shortestFrom (x : Binary64) (num den : Nat) (place : Int) : Nat → Decimal
  | 0 =>
    let s := scaleDownTen num den (place - 16)
    ⟨roundDiv s.1 s.2, place - 16⟩
  | more + 1 =>
    match readBackAt? x num den (place + more - 16) with
    | some d => d
    | none => shortestFrom x num den place more

/-- The shortest decimal of the positive number `mantissa * 2 ^ exponent`. -/
def shortest (mantissa : Nat) (exponent : Int) : Decimal :=
  let q := magnitude mantissa exponent
  let num := q.num.natAbs
  (shortestFrom (.finite false mantissa exponent) num q.den (leadingPlace num q.den) 17).reduce

end Binary64

end Questionnaire
