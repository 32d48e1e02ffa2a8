/-!
# Binary floating point

The numbers of the 64-bit binary format, held as exact values.  Every operation computes the exact
rational result and rounds it once, to the nearest number of the format, a tie going to the even
mantissa.

## Main Definitions

* `roundDiv` - the nearest natural to a quotient of naturals
* `Binary64` - not-a-number, the infinities, and the finite numbers `± mantissa * 2 ^ exponent`
* `Binary64.ofRatio` - the nearest number to a quotient of naturals
* `Binary64.toRat?` - the exact value of a finite number
* `Quantity` - an exact value, an infinity or not-a-number, with its order

## Design Notes

Numbers of different kinds (integers of any size, floating point) are compared as `Quantity`, so a
comparison never rounds.
-/

namespace Questionnaire

/-- The nearest natural to `num / den`, a tie going to the even neighbour. -/
def roundDiv (num den : Nat) : Nat :=
  let q := num / den
  let r := num % den
  if 2 * r < den then q else if den < 2 * r then q + 1 else q + q % 2

/-- A number of the 64-bit binary format. -/
inductive Binary64 where
  /-- The result of an operation without a value. -/
  | nan
  /-- A value beyond the largest finite number. -/
  | infinity (negative : Bool)
  /-- The value `± mantissa * 2 ^ exponent`; zero has a sign. -/
  | finite (negative : Bool) (mantissa : Nat) (exponent : Int)
  deriving DecidableEq, Repr, Inhabited

namespace Binary64

/-- The least exponent of a finite number. -/
def minExponent : Int := -1074

/-- The greatest exponent of a finite number. -/
def maxExponent : Int := 971

/-- Zero with a sign. -/
def zero (negative : Bool) : Binary64 := .finite negative 0 minExponent

/-- `num / den` divided by `2 ^ e`, as a quotient of naturals. -/
def scaleDown (num den : Nat) (e : Int) : Nat × Nat :=
  if 0 ≤ e then (num, den * Nat.pow 2 e.toNat) else (num * Nat.pow 2 (-e).toNat, den)

/-- The exponent that leaves a mantissa of 53 bits for `num / den`, or the least exponent. -/
def unitExponent (num den : Nat) : Int :=
  let e : Int := (num.log2 : Int) - den.log2 - 53
  let s := scaleDown num den e
  max minExponent (if s.1 / s.2 < Nat.pow 2 53 then e else e + 1)

/-- The finite number with a rounded mantissa, or infinity when the exponent is too large. -/
def pack (negative : Bool) (mantissa : Nat) (exponent : Int) : Binary64 :=
  if mantissa = Nat.pow 2 53 then
    if maxExponent < exponent + 1 then .infinity negative
    else .finite negative (Nat.pow 2 52) (exponent + 1)
  else if maxExponent < exponent then .infinity negative
  else .finite negative mantissa exponent

/-- The nearest number to `± num / den`. -/
def ofRatio (negative : Bool) (num den : Nat) : Binary64 :=
  if num = 0 then zero negative
  else
    let e := unitExponent num den
    let s := scaleDown num den e
    pack negative (roundDiv s.1 s.2) e

/-- The nearest number to a rational, zero being positive. -/
def ofRat (x : Rat) : Binary64 := ofRatio (x.num < 0) x.num.natAbs x.den

/-- The nearest number to an integer. -/
def ofInt (n : Int) : Binary64 := ofRatio (n < 0) n.natAbs 1

/-- The nearest number to an integer, when it is finite. -/
def ofInt? (n : Int) : Option Binary64 :=
  match ofInt n with
  | .finite s m e => some (.finite s m e)
  | _ => none

/-- The nearest number to `± digits * 10 ^ exponent`.  An exponent beyond the range of the format
is settled by the number of digits. -/
def ofDecimal (negative : Bool) (digits : Nat) (exponent : Int) : Binary64 :=
  let places : Int := digits.repr.length + exponent
  if digits = 0 then zero negative
  else if 400 < places then .infinity negative
  else if places < -400 then zero negative
  else if 0 ≤ exponent then ofRatio negative (digits * Nat.pow 10 exponent.toNat) 1
  else ofRatio negative digits (Nat.pow 10 (-exponent).toNat)

/-- The magnitude `mantissa * 2 ^ exponent`. -/
def magnitude (mantissa : Nat) (exponent : Int) : Rat := (mantissa : Rat) * (2 : Rat) ^ exponent

/-- The exact value of a finite number. -/
def toRat? : Binary64 → Option Rat
  | .finite negative m e => some (if negative then -magnitude m e else magnitude m e)
  | _ => none

/-- The integer that a number is, if it is one. -/
def toInt? (x : Binary64) : Option Int :=
  match x.toRat? with
  | some q => if q.den = 1 then some q.num else none
  | none => none

/-- Not-a-number. -/
def isNan : Binary64 → Bool
  | .nan => true
  | _ => false

/-- Zero of either sign. -/
def isZero : Binary64 → Bool
  | .finite _ m _ => m == 0
  | _ => false

/-- The sign bit; not-a-number has none. -/
def isNegative : Binary64 → Bool
  | .nan => false
  | .infinity s => s
  | .finite s _ _ => s

/-- The number of the other sign. -/
def neg : Binary64 → Binary64
  | .nan => .nan
  | .infinity s => .infinity (!s)
  | .finite s m e => .finite (!s) m e

/-- The rounded sum.  A sum of zero is negative only for two negative zeros. -/
def add : Binary64 → Binary64 → Binary64
  | .nan, _ => .nan
  | _, .nan => .nan
  | .infinity s, .infinity t => if s = t then .infinity s else .nan
  | .infinity s, .finite .. => .infinity s
  | .finite .., .infinity t => .infinity t
  | .finite s m e, .finite t n f =>
    let sum := (if s then -magnitude m e else magnitude m e)
      + (if t then -magnitude n f else magnitude n f)
    if sum = 0 then zero (s && t) else ofRat sum

/-- The rounded difference. -/
def sub (x y : Binary64) : Binary64 := add x y.neg

/-- The rounded product. -/
def mul : Binary64 → Binary64 → Binary64
  | .nan, _ => .nan
  | _, .nan => .nan
  | .infinity s, .infinity t => .infinity (s != t)
  | .infinity s, .finite t m _ => if m = 0 then .nan else .infinity (s != t)
  | .finite s m _, .infinity t => if m = 0 then .nan else .infinity (s != t)
  | .finite s m e, .finite t n f =>
    let product := magnitude m e * magnitude n f
    ofRatio (s != t) product.num.natAbs product.den

end Binary64

/-- A numeric value as comparisons see it. -/
inductive Quantity where
  /-- Not-a-number, which is not comparable to anything. -/
  | nan
  /-- An infinity. -/
  | infinity (negative : Bool)
  /-- An exact value. -/
  | exact (value : Rat)
  deriving DecidableEq

namespace Quantity

/-- The order of two quantities; there is none with not-a-number. -/
def compare? : Quantity → Quantity → Option Ordering
  | .nan, _ => none
  | _, .nan => none
  | .infinity s, .infinity t => some (if s = t then .eq else if s then .lt else .gt)
  | .infinity s, .exact _ => some (if s then .lt else .gt)
  | .exact _, .infinity t => some (if t then .gt else .lt)
  | .exact x, .exact y => some (if x < y then .lt else if x = y then .eq else .gt)

/-- Equality of comparable quantities. -/
def eq (x y : Quantity) : Bool := compare? x y == some .eq

/-- The strict order. -/
def lt (x y : Quantity) : Bool := compare? x y == some .lt

/-- Strict order or equality. -/
def le (x y : Quantity) : Bool := lt x y || eq x y

end Quantity

/-- The value of a floating point number as comparisons see it. -/
def Binary64.quantity (x : Binary64) : Quantity :=
  match x with
  | .nan => .nan
  | .infinity s => .infinity s
  | .finite s m e => .exact (if s then -magnitude m e else magnitude m e)

/-- The value of an integer as comparisons see it. -/
def Quantity.ofInt (n : Int) : Quantity := .exact n

end Questionnaire
