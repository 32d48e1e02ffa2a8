import Questionnaire.Json.Basic
import Questionnaire.Number.Reading

/-!
# Reading data

The reader takes the notation that the writer produces, any blanks between its parts, escapes in
texts, and the names of the three special numbers.  Of several members with one name the last one
counts.

## Main Definitions

* `Json.ReadError` - why a text denotes no value
* `Json.read` - the value that a whole text denotes
* `Json.read?` - the same for readers that do not ask why there is none

## Design Notes

The reader recurses on a measure that starts at twice the length of the text: each step either
consumes a character or hands the same text to the reader of a value once.

A text is read from left to right, so of two defects the first one is reported.
-/

namespace Questionnaire

namespace Json

/-- Why a text denotes no value. -/
inductive ReadError where
  /-- The text is not in the notation. -/
  | malformed
  /-- An integer has more digits than are read. -/
  | tooManyDigits (count : Nat)
  deriving DecidableEq, Repr

namespace Reader

/-- A blank between the parts of a written value. -/
def isSpace (c : Char) : Bool := c == ' ' || c == '\t' || c == '\n' || c == '\r'

/-- The text without the blanks at its start. -/
def skip (cs : List Char) : List Char := cs.dropWhile isSpace

/-- What follows a word at the start of a text. -/
def dropWord? : List Char → List Char → Option (List Char)
  | [], cs => some cs
  | _ :: _, [] => none
  | w :: word, c :: cs => if w = c then dropWord? word cs else none

/-- The value of a digit in base sixteen. -/
def hexDigit? (c : Char) : Option Nat :=
  if '0' ≤ c ∧ c ≤ '9' then some (c.toNat - '0'.toNat)
  else if 'a' ≤ c ∧ c ≤ 'f' then some (c.toNat - 'a'.toNat + 10)
  else if 'A' ≤ c ∧ c ≤ 'F' then some (c.toNat - 'A'.toNat + 10)
  else none

/-- The number that four digits in base sixteen denote, and what follows them. -/
def hexFour? : List Char → Option (Nat × List Char)
  | a :: b :: c :: d :: rest =>
    match hexDigit? a, hexDigit? b, hexDigit? c, hexDigit? d with
    | some x, some y, some z, some w => some (((x * 16 + y) * 16 + z) * 16 + w, rest)
    | _, _, _, _ => none
  | _ => none

/-- The first half of a pair that encodes a code point beyond 16 bits. -/
def isHighHalf (n : Nat) : Bool := 0xD800 ≤ n && n < 0xDC00

/-- The second half of such a pair. -/
def isLowHalf (n : Nat) : Bool := 0xDC00 ≤ n && n < 0xE000

/-- A code unit as a character; half of a pair on its own has none and is replaced. -/
def unitChar (n : Nat) : Char := if isHighHalf n || isLowHalf n then '\uFFFD' else Char.ofNat n

/-- The character that the code after the letter of an escape denotes, and what follows it. -/
def codeEscape? (cs : List Char) : Option (Char × List Char) :=
  match hexFour? cs with
  | none => none
  | some (n, rest) =>
    if isHighHalf n then
      match rest with
      | '\\' :: 'u' :: more =>
        match hexFour? more with
        | some (m, rest') =>
          if isLowHalf m then
            some (Char.ofNat (0x10000 + (n - 0xD800) * 0x400 + (m - 0xDC00)), rest')
          else some (unitChar n, rest)
        | none => some (unitChar n, rest)
      | _ => some (unitChar n, rest)
    else some (unitChar n, rest)

/-- The character that a one-letter escape denotes. -/
def letterEscape? : Char → Option Char
  | '"' => some '"'
  | '\\' => some '\\'
  | '/' => some '/'
  | 'b' => some '\x08'
  | 'f' => some '\x0c'
  | 'n' => some '\n'
  | 'r' => some '\r'
  | 't' => some '\t'
  | _ => none

/-- A text after its opening quote, and what follows its closing quote; `fuel` bounds its
length. -/
def text? : Nat → List Char → Option (List Char × List Char)
  | 0, _ => none
  | _ + 1, [] => none
  | _ + 1, '"' :: rest => some ([], rest)
  | fuel + 1, '\\' :: 'u' :: rest =>
    match codeEscape? rest with
    | some (c, rest') => (text? fuel rest').map fun p => (c :: p.1, p.2)
    | none => none
  | fuel + 1, '\\' :: e :: rest =>
    match letterEscape? e with
    | some c => (text? fuel rest).map fun p => (c :: p.1, p.2)
    | none => none
  | fuel + 1, c :: rest =>
    if c = '\\' ∨ c.toNat < 0x20 then none
    else (text? fuel rest).map fun p => (c :: p.1, p.2)

/-- The whole part of a number at the start of a text: zero, or digits without a leading zero. -/
def whole (cs : List Char) : List Char :=
  match cs with
  | '0' :: _ => ['0']
  | _ => cs.takeWhile Char.isDigit

/-- The fraction of a number at the start of a text: its digits after a point, if there are any. -/
def fraction : List Char → List Char
  | '.' :: rest => rest.takeWhile Char.isDigit
  | _ => []

/-- The exponent of a number at the start of a text and the number of its characters, if it is
complete. -/
def exponent? : List Char → Option (Int × Nat)
  | c :: rest =>
    if c = 'e' ∨ c = 'E' then
      let signed := match rest with
        | '+' :: _ => true
        | '-' :: _ => true
        | _ => false
      let (negative, body) := Binary64.readSign rest
      let digits := body.takeWhile Char.isDigit
      if digits.isEmpty then none
      else
        let n : Int := digitsValue digits
        some (if negative then -n else n, 1 + (if signed then 1 else 0) + digits.length)
    else none
  | [] => none

/-- A number at the start of a text without its sign, and what follows it.  A number with a fraction
or an exponent is a floating point number. -/
def number (negative : Bool) (cs : List Char) : Except ReadError (Json × List Char) :=
  let digits := whole cs
  if digits.isEmpty then .error .malformed
  else
    let rest := cs.drop digits.length
    let places := fraction rest
    let rest' := if places.isEmpty then rest else rest.drop (places.length + 1)
    match places, exponent? rest' with
    | [], none =>
      if maxDigits < digits.length then .error (.tooManyDigits digits.length)
      else
        let n : Int := digitsValue digits
        .ok (.int (if negative then -n else n), rest)
    | _, none =>
      .ok (.float (.ofDecimal negative (digitsValue (digits ++ places)) (-(places.length : Int))),
        rest')
    | _, some (e, length) =>
      .ok (.float (.ofDecimal negative (digitsValue (digits ++ places))
        (e - (places.length : Int))), rest'.drop length)

/-- A word at the start of a text, and what follows it; the word stands for a value. -/
def word (spelling : String) (v : Json) (cs : List Char) : Except ReadError (Json × List Char) :=
  match dropWord? spelling.toList cs with
  | some rest => .ok (v, rest)
  | none => .error .malformed

/-- A value that is one word or one number at the start of a text. -/
def scalar (cs : List Char) : Except ReadError (Json × List Char) :=
  match cs with
  | 'n' :: _ => word "null" .null cs
  | 't' :: _ => word "true" (.bool true) cs
  | 'f' :: _ => word "false" (.bool false) cs
  | 'N' :: _ => word "NaN" (.float .nan) cs
  | 'I' :: _ => word "Infinity" (.float (.infinity false)) cs
  | '-' :: 'I' :: _ => word "-Infinity" (.float (.infinity true)) cs
  | '-' :: rest => number true rest
  | _ => number false cs

/-- A text after its opening quote as a string, and what follows its closing quote; `fuel` bounds
its length. -/
def text (fuel : Nat) (cs : List Char) : Except ReadError (String × List Char) :=
  match text? fuel cs with
  | some (body, rest) => .ok (String.ofList body, rest)
  | none => .error .malformed

mutual

/-- A value at the start of a text, and what follows it. -/
def value : Nat → List Char → Except ReadError (Json × List Char)
  | 0, _ => .error .malformed
  | fuel + 1, '"' :: rest => (text fuel rest).map fun p => (.str p.1, p.2)
  | fuel + 1, '[' :: rest =>
    match skip rest with
    | ']' :: rest' => .ok (.arr [], rest')
    | _ => (items fuel (skip rest)).map fun p => (.arr p.1, p.2)
  | fuel + 1, '\x7b' :: rest =>
    match skip rest with
    | '\x7d' :: rest' => .ok (.obj [], rest')
    | _ => (members fuel (skip rest)).map fun p => (.obj (Assoc.ofEntries p.1), p.2)
  | _ + 1, cs => scalar cs

/-- The items of a list up to its closing bracket. -/
def items : Nat → List Char → Except ReadError (List Json × List Char)
  | 0, _ => .error .malformed
  | fuel + 1, cs =>
    match value fuel cs with
    | .error e => .error e
    | .ok (v, rest) =>
      match skip rest with
      | ',' :: rest' => (items fuel (skip rest')).map fun p => (v :: p.1, p.2)
      | ']' :: rest' => .ok ([v], rest')
      | _ => .error .malformed

/-- The members of an object up to its closing bracket. -/
def members : Nat → List Char → Except ReadError (List (String × Json) × List Char)
  | 0, _ => .error .malformed
  | fuel + 1, cs =>
    match cs with
    | '"' :: rest =>
      match text fuel rest with
      | .error e => .error e
      | .ok (name, rest') =>
        match skip rest' with
        | ':' :: rest'' =>
          match value fuel (skip rest'') with
          | .error e => .error e
          | .ok (v, tail) =>
            match skip tail with
            | ',' :: tail' => (members fuel (skip tail')).map fun p => ((name, v) :: p.1, p.2)
            | '\x7d' :: tail' => .ok ([(name, v)], tail')
            | _ => .error .malformed
        | _ => .error .malformed
    | _ => .error .malformed

end

end Reader

/-- The value that a whole text denotes. -/
def read (s : String) : Except ReadError Json :=
  let cs := Reader.skip s.toList
  match Reader.value (2 * cs.length + 1) cs with
  | .error e => .error e
  | .ok (v, rest) => if (Reader.skip rest).isEmpty then .ok v else .error .malformed

/-- The value that a whole text denotes, if it denotes one. -/
def read? (s : String) : Option Json := (read s).toOption

end Json

end Questionnaire
