import Questionnaire.Fault
import Questionnaire.Number.Reading

/-!
# Layouts of values

A layout says how a value is laid out inside a message: filling, alignment, sign, width, grouping of
digits, precision and form.

## Main Definitions

* `Layout` - the parts of a layout
* `Layout.parse?` - the layout that a text spells
* `Layout.value` - a value under the layout that a text spells

## Design Notes

A number is laid out as sign, mark of its base, digits before the point, and the rest; filling and
grouping touch only the digits before the point.

Digits beyond those that a floating point number has are zeros, so they are added and not computed.
A layout that asks for a text of excessive length fails.
-/

namespace Questionnaire

/-- The side on which filling goes. -/
inductive Alignment where
  /-- The value stands left. -/
  | left
  /-- The value stands right. -/
  | right
  /-- The value stands in the middle, an odd filling character after it. -/
  | center
  /-- The filling stands between the sign and the digits. -/
  | afterSign
  deriving DecidableEq, Repr

namespace Alignment

/-- The alignment of a character. -/
def ofChar? : Char → Option Alignment
  | '<' => some .left
  | '>' => some .right
  | '^' => some .center
  | '=' => some .afterSign
  | _ => none

end Alignment

/-- How a value is laid out. -/
structure Layout where
  /-- The filling character. -/
  fill : Char
  /-- Where the value stands. -/
  align : Alignment
  /-- The character for the sign of a number. -/
  sign : Option Char
  /-- A negative zero loses its sign. -/
  plainZero : Bool
  /-- The variant of the form. -/
  alternate : Bool
  /-- The least width. -/
  width : Option Nat
  /-- The character between groups of digits. -/
  grouping : Option Char
  /-- The number of digits, or the greatest length of a text. -/
  precision : Option Nat
  /-- The form. -/
  form : Option Char

namespace Layout

/-- The filling and the alignment at the start of a layout, and what follows them. -/
def readAlignment : List Char → Option Char × Option Alignment × List Char
  | f :: a :: rest =>
    match Alignment.ofChar? a with
    | some al => (some f, some al, rest)
    | none =>
      match Alignment.ofChar? f with
      | some al => (none, some al, a :: rest)
      | none => (none, none, f :: a :: rest)
  | [a] =>
    match Alignment.ofChar? a with
    | some al => (none, some al, [])
    | none => (none, none, [a])
  | [] => (none, none, [])

/-- A character that is one of `wanted` at the start of a text, and what follows it. -/
def readOne (wanted : List Char) : List Char → Option Char × List Char
  | [] => (none, [])
  | c :: rest => if wanted.contains c then (some c, rest) else (none, c :: rest)

/-- A count at the start of a text, if there is one, and what follows it. -/
def readCount? (cs : List Char) : Option (Option Nat × List Char) :=
  let digits := cs.takeWhile Unicode.isDigit
  if digits.isEmpty then some (none, cs)
  else if maxCount < digitsValue digits then none
  else some (some (digitsValue digits), cs.dropWhile Unicode.isDigit)

/-- The grouping at the start of a text, and what follows it. -/
def readGrouping? : List Char → Option (Option Char × List Char)
  | ',' :: '_' :: _ => none
  | '_' :: ',' :: _ => none
  | ',' :: rest => some (some ',', rest)
  | '_' :: rest => some (some '_', rest)
  | cs => some (none, cs)

/-- The precision at the start of a text, and what follows it. -/
def readPrecision? : List Char → Option (Option Nat × List Char)
  | '.' :: rest =>
    match readCount? rest with
    | some (some n, rest') => some (some n, rest')
    | _ => none
  | cs => some (none, cs)

/-- The form at the end of a layout. -/
def readForm? : List Char → Option (Option Char)
  | [] => some none
  | [c] => some (some c)
  | _ => none

/-- The forms whose digits may be grouped by commas. -/
def commaForms : List Char := ['d', 'e', 'f', 'g', 'E', 'G', '%', 'F']

/-- The forms whose digits may be grouped by underscores only. -/
def underscoreForms : List Char := ['b', 'o', 'x', 'X']

/-- A grouping goes with a form; without a form it goes with numbers only. -/
def groupingFits (numeric : Bool) (grouping : Option Char) (form : Option Char) : Bool :=
  match grouping, form with
  | none, _ => true
  | some _, none => numeric
  | some g, some f => commaForms.contains f || (g == '_' && underscoreForms.contains f)

/-- The layout that a text spells, for a number or for a text. -/
def parse? (numeric : Bool) (cs : List Char) : Option Layout := do
  let (fill, align, rest) := readAlignment cs
  let (sign, rest) := readOne ['+', '-', ' '] rest
  let (plainZero, rest) := readOne ['z'] rest
  let (alternate, rest) := readOne ['#'] rest
  let (zero, rest) := if fill.isNone then readOne ['0'] rest else (none, rest)
  let (width, rest) ← readCount? rest
  let (grouping, rest) ← readGrouping? rest
  let (precision, rest) ← readPrecision? rest
  let form ← readForm? rest
  let standard := if numeric then
    (if zero.isSome then Alignment.afterSign else .right) else .left
  if groupingFits numeric grouping form then
    some ⟨fill.getD (if zero.isSome then '0' else ' '), align.getD standard, sign,
      plainZero.isSome, alternate.isSome, width, grouping, precision, form⟩
  else none

/-- The failure of a text that spells no layout for a value. -/
def unfit : Fault := .badPattern "Invalid format specifier"

/-- A text has fewer characters than this. -/
def maxLength : Nat := 1000000000

/-- The least width of the text, which has to be possible. -/
def checkedWidth (l : Layout) : Except Fault Nat :=
  let width := l.width.getD 0
  if width < maxLength then .ok width else .error .noSpace

/-- Characters between filling of `n` characters, as the alignment says. -/
def padded (l : Layout) (n : Nat) (head body : List Char) : List Char :=
  let filling := fun k => List.replicate k l.fill
  match l.align with
  | .left => head ++ body ++ filling n
  | .right => filling n ++ head ++ body
  | .center => filling (n / 2) ++ head ++ body ++ filling (n - n / 2)
  | .afterSign => head ++ filling n ++ body

/-- A text under a layout. -/
def text (l : Layout) (s : String) : Except Fault String :=
  if l.sign.isSome || l.plainZero || l.alternate || l.align == .afterSign
      || !(l.form == none || l.form == some 's') then .error unfit
  else do
    let cs := match l.precision with
      | some p => s.toList.take p
      | none => s.toList
    let width ← l.checkedWidth
    pure (String.ofList (l.padded (width - cs.length) [] cs))

/-- The sign of a number. -/
def signChars (l : Layout) (negative : Bool) : List Char :=
  if negative then ['-']
  else
    match l.sign with
    | some '+' => ['+']
    | some ' ' => [' ']
    | _ => []

/-- The digits of a number backwards in groups of `size`, filled up with zeros to `least`
characters; `fuel` bounds the number of groups. -/
def groups (mark : Char) (size : Nat) : Nat → Int → List Char → List Char
  | 0, _, digits => digits
  | fuel + 1, least, digits =>
    let len := min size (max (max digits.length least.toNat) 1)
    let group := digits.take len ++ List.replicate (len - digits.length) '0'
    let rest := digits.drop len
    if rest.isEmpty && least ≤ len then group
    else group ++ mark :: groups mark size fuel (least - len - 1) rest

/-- The digits of a number, grouped and filled up with zeros to `least` characters. -/
def digitRun (l : Layout) (size least : Nat) (digits : List Char) : List Char :=
  match l.grouping with
  | some mark => (groups mark size (digits.length + least + 1) least digits.reverse).reverse
  | none => Text.padStart '0' least digits

/-- A number under a layout: its sign, the mark of its base, its digits before the point in groups
of `size`, and the rest. -/
def number (l : Layout) (negative : Bool) (mark : List Char) (size : Nat)
    (digits rest : List Char) : Except Fault String := do
  let head := l.signChars negative ++ mark
  let width ← l.checkedWidth
  let least :=
    if l.fill = '0' ∧ l.align = .afterSign then width - head.length - rest.length else 0
  let run := if digits.isEmpty then [] else l.digitRun size least digits
  pure (String.ofList
    (l.padded (width - head.length - run.length - rest.length) head (run ++ rest)))

/-- The base of a form of integers and the mark of that base. -/
def base? : Option Char → Option (Nat × List Char)
  | none => some (10, [])
  | some 'd' => some (10, [])
  | some 'n' => some (10, [])
  | some 'b' => some (2, ['0', 'b'])
  | some 'o' => some (8, ['0', 'o'])
  | some 'x' => some (16, ['0', 'x'])
  | some 'X' => some (16, ['0', 'X'])
  | _ => none

/-- The character with a code, under a layout. -/
def character (l : Layout) (n : Int) : Except Fault String :=
  if l.sign.isSome || l.alternate then .error unfit
  else if 0 ≤ n ∧ n < 0x110000 then
    l.number false [] 3 [] [Char.ofNat n.toNat]
  else .error .tooLarge

/-- No floating point number has more digits, or more places after the point. -/
def exactDigits : Nat := 1100

/-- The digits of a magnitude that is rounded to `n` digits, a tie going to the even digit, and the
number of them before the point.  Of more digits than the magnitude has the zeros are left out. -/
def significant (n : Nat) (x : Rat) : List Char × Int :=
  if x.num.natAbs = 0 then (['0'], 1)
  else
    let n := min n exactDigits
    let place := Binary64.leadingPlace x.num.natAbs x.den
    let s := Binary64.scaleDownTen x.num.natAbs x.den (place - (n : Int) + 1)
    let digits := Nat.toDigits 10 (roundDiv s.1 s.2)
    (digits.take n, place + 1 + ((digits.length : Int) - n))

/-- Digits without the zeros at their end. -/
def withoutZeros (digits : List Char) : List Char :=
  match (digits.reverse.dropWhile (· == '0')).reverse with
  | [] => ['0']
  | kept => kept

/-- The digits before the point of the number `0.digits * 10 ^ point`, and the rest of it with at
least `least` digits in all. -/
def positional (digits : List Char) (point : Int) (least : Int) : List Char × List Char :=
  let whole :=
    if point ≤ 0 then ['0']
    else digits.take point.toNat ++ List.replicate (point.toNat - digits.length) '0'
  let fraction := List.replicate (-point).toNat '0' ++ digits.drop point.toNat
  let missing := (least - max (digits.length : Int) point).toNat
  (whole, fraction ++ List.replicate missing '0')

/-- The rest of a number: its point and the digits after it.  The point stands without digits only
in the variant of a form. -/
def fractionChars (l : Layout) (fraction : List Char) : List Char :=
  if fraction.isEmpty && !l.alternate then [] else '.' :: fraction

/-- The exponent part of a number. -/
def exponentChars (letter : Char) (e : Int) : List Char := (renderExponent 2 letter e).toList

/-- A number with an exponent: the digit before the point, and the rest. -/
def scientific (l : Layout) (letter : Char) (least : Nat) (digits : List Char) (point : Int) :
    List Char × List Char :=
  let p := positional digits 1 least
  (p.1, l.fractionChars p.2 ++ exponentChars letter (point - 1))

/-- The digits before the point of a magnitude in a form, and the rest. -/
def magnitudeChars (l : Layout) (mantissa : Nat) (exponent : Int) : List Char × List Char :=
  let x := Binary64.magnitude mantissa exponent
  let general := fun (letter : Char) (precision : Nat) (wholeMark : Bool) =>
    let n := max precision 1
    let s := significant n x
    let digits := withoutZeros s.1
    let least := if l.alternate then n else 0
    if s.2 ≤ -4 ∨ (n : Int) - (if wholeMark then 1 else 0) < s.2 then
      l.scientific letter least digits s.2
    else
      let p := positional digits s.2 (if wholeMark then max (least : Int) (s.2 + 1) else least)
      (p.1, l.fractionChars p.2)
  let fixed := fun (y : Rat) (precision : Nat) =>
    let p := fixedDigits (min precision exactDigits) y
    (p.1, l.fractionChars (p.2 ++ List.replicate (precision - exactDigits) '0'))
  match l.form with
  | some 'e' => let s := significant (l.precision.getD 6 + 1) x
    l.scientific 'e' (l.precision.getD 6 + 1) s.1 s.2
  | some 'E' => let s := significant (l.precision.getD 6 + 1) x
    l.scientific 'E' (l.precision.getD 6 + 1) s.1 s.2
  | some 'g' => general 'e' (l.precision.getD 6) false
  | some 'n' => general 'e' (l.precision.getD 6) false
  | some 'G' => general 'E' (l.precision.getD 6) false
  | none =>
    match l.precision with
    | some p => general 'e' p true
    | none =>
      let d := if mantissa = 0 then ⟨0, 0⟩ else Binary64.shortest mantissa exponent
      let digits := Nat.toDigits 10 d.digits
      let point : Int := d.exponent + digits.length
      if point ≤ -4 ∨ 16 < point then l.scientific 'e' 0 digits point
      else
        let p := positional digits point (point + 1)
        (p.1, l.fractionChars p.2)
  | _ => fixed x (l.precision.getD 6)

/-- The forms of floating point numbers. -/
def realForms : List Char := ['e', 'E', 'f', 'F', 'g', 'G', 'n', '%']

/-- The name of a special value in a form: upper case in the upper-case forms. -/
def specialName (form : Option Char) (name : String) : List Char :=
  if form = some 'E' ∨ form = some 'F' ∨ form = some 'G' then name.toList.map Char.toUpper
  else name.toList

/-- A zero in whatever form. -/
def isZeroRun (cs : List Char) : Bool :=
  (cs.takeWhile fun c => c != 'e' && c != 'E').all fun c => !('1' ≤ c && c ≤ '9')

/-- The greatest precision of a floating point number. -/
def maxPrecision : Nat := 2147483647

/-- The forms that write all digits of the precision. -/
def fullForms : List Char := ['e', 'E', 'f', 'F', '%']

/-- The text of a floating point number has excessively many digits. -/
def isTooLong (l : Layout) : Bool :=
  l.precision.any (maxLength ≤ ·) && (l.alternate || l.form.any fullForms.contains)

/-- A floating point number under a layout. -/
def real (l : Layout) (x : Binary64) : Except Fault String :=
  if !(l.form.isNone || l.form.any realForms.contains) then .error unfit
  else if l.precision.any (maxPrecision < ·) then .error (.badPattern "precision too big")
  else
    let percent := l.form == some '%'
    let tail := if percent then ['%'] else []
    let y := if percent then x.mul (.ofInt 100) else x
    match y with
    | .nan => l.number false [] 3 [] (specialName l.form "nan" ++ tail)
    | .infinity s => l.number s [] 3 [] (specialName l.form "inf" ++ tail)
    | .finite s m e =>
      if l.isTooLong then .error .noSpace
      else
        let p := l.magnitudeChars m e
        let negative := s && !(l.plainZero && isZeroRun (p.1 ++ p.2))
        l.number negative [] 3 p.1 (p.2 ++ tail)

/-- An integer under a layout. -/
def integer (l : Layout) (n : Int) : Except Fault String :=
  match base? l.form with
  | some (base, mark) =>
    if l.precision.isSome || l.plainZero then .error unfit
    else
      let digits := Nat.toDigits base n.natAbs
      let shown := if l.form = some 'X' then digits.map Char.toUpper else digits
      let lead := if l.alternate then mark else []
      l.number (n < 0) lead (if base = 10 then 3 else 4) shown []
  | none =>
    if l.form = some 'c' then
      if l.precision.isSome || l.plainZero then .error unfit else l.character n
    else if l.form.any realForms.contains then
      match Binary64.ofInt? n with
      | some x => l.real x
      | none => .error .tooLarge
    else .error unfit

/-- A value under the layout that `cs` spells; without a layout the value is displayed. -/
def value (cs : List Char) (v : Json) : Except Fault String :=
  if cs.isEmpty then .ok v.display
  else
    match v with
    | .str s => match parse? false cs with
      | some l => l.text s
      | none => .error unfit
    | .int n => match parse? true cs with
      | some l => l.integer n
      | none => .error unfit
    | .bool b => match parse? true cs with
      | some l => l.integer (if b then 1 else 0)
      | none => .error unfit
    | .float x => match parse? true cs with
      | some l => l.real x
      | none => .error unfit
    | w => .error (.notDefined "layout" w.kindName)

theorem value_nil (v : Json) : value [] v = .ok v.display := rfl

end Layout

end Questionnaire
