import Questionnaire.Catalog.Basic
import Questionnaire.Json.Reading
import Questionnaire.Message.Wording
import Questionnaire.Number.Multiple
import Questionnaire.Text.CaseFree

/-!
# Limits of numbers

The bounds and the step that a number has to respect.  They are written as an object, or as a text
of parts such as `min=1` and `<=5`; parts that cannot be read are ignored.

## Main Definitions

* `Limits` - the bounds and the step
* `Limits.ofJson` - the limits that are written as a value
* `Limits.violation?` - the first limit that a number violates

## Design Notes

The step is measured from the least value, so a number and its distance from there are two different
floating point numbers; the distance is compared with the step by their decimal notations.
-/

namespace Questionnaire

/-- A part of the limits. -/
inductive Bound where
  /-- The least value. -/
  | min
  /-- The greatest value. -/
  | max
  /-- The step. -/
  | step
  /-- Another least value. -/
  | gte
  /-- Another greatest value. -/
  | lte
  /-- A value that has to be exceeded. -/
  | gt
  /-- A value that must not be reached. -/
  | lt
  deriving DecidableEq, Repr

namespace Bound

/-- All parts of the limits. -/
def all : List Bound := [.min, .max, .step, .gte, .lte, .gt, .lt]

theorem mem_all (b : Bound) : b ∈ all := by
  cases b <;> decide

/-- The name of a part in an object. -/
def name : Bound → String
  | .min => "min"
  | .max => "max"
  | .step => "step"
  | .gte => "gte"
  | .lte => "lte"
  | .gt => "gt"
  | .lt => "lt"

end Bound

/-- The bounds and the step of a number. -/
structure Limits where
  /-- The least value. -/
  min : Option Binary64 := none
  /-- The greatest value. -/
  max : Option Binary64 := none
  /-- The step. -/
  step : Option Binary64 := none
  /-- Another least value. -/
  gte : Option Binary64 := none
  /-- Another greatest value. -/
  lte : Option Binary64 := none
  /-- A value that has to be exceeded. -/
  gt : Option Binary64 := none
  /-- A value that must not be reached. -/
  lt : Option Binary64 := none
  deriving DecidableEq

namespace Limits

/-- The limits with one part set. -/
def put (l : Limits) (b : Bound) (x : Binary64) : Limits :=
  match b with
  | .min => { l with min := some x }
  | .max => { l with max := some x }
  | .step => { l with step := some x }
  | .gte => { l with gte := some x }
  | .lte => { l with lte := some x }
  | .gt => { l with gt := some x }
  | .lt => { l with lt := some x }

/-- A part of the limits. -/
def get? (l : Limits) : Bound → Option Binary64
  | .min => l.min
  | .max => l.max
  | .step => l.step
  | .gte => l.gte
  | .lte => l.lte
  | .gt => l.gt
  | .lt => l.lt

theorem get?_empty (b : Bound) : ({} : Limits).get? b = none := by
  cases b <;> rfl

theorem get?_put_self (l : Limits) (b : Bound) (x : Binary64) : (l.put b x).get? b = some x := by
  cases b <;> rfl

theorem get?_put_of_ne {b b' : Bound} (l : Limits) (x : Binary64) (h : b' ≠ b) :
    (l.put b' x).get? b = l.get? b := by
  cases b <;> cases b' <;> first | exact absurd rfl h | rfl

/-- The value that steps are measured from. -/
def stepBase (l : Limits) : Json :=
  match l.min, l.gte with
  | some x, _ => .float x
  | none, some x => .float x
  | none, none => .int 0

/-- What follows a name and an equals sign at the start of a text, blanks left out. -/
def afterName? (name : String) (cs : List Char) : Option (List Char) :=
  match Text.dropWord? name.toList cs with
  | none => none
  | some rest =>
    match rest.dropWhile Unicode.isBlank with
    | '=' :: rest => some (rest.dropWhile Unicode.isBlank)
    | _ => none

/-- What follows a sign at the start of a text, blanks left out. -/
def afterSign? (sign cs : List Char) : Option (List Char) :=
  if sign.isPrefixOf cs then some ((cs.drop sign.length).dropWhile Unicode.isBlank) else none

/-- The digits of a text that is a plain numeral, commas left out. -/
def numeralText? (cs : List Char) : Option (List Char) :=
  let isWhole := fun c => Unicode.isDigit c || c == ','
  let whole := cs.takeWhile isWhole
  if whole.isEmpty then none
  else
    match cs.dropWhile isWhole with
    | [] => some (whole.filter (· != ','))
    | '.' :: fraction =>
      if !fraction.isEmpty && fraction.all Unicode.isDigit then
        some (whole.filter (· != ',') ++ '.' :: fraction)
      else none
    | _ => none

/-- The spellings of the parts: which part a text begins with, and what follows. -/
def spellings (cs : List Char) : List (Bound × Option (List Char)) := [
  (.min, afterName? "min" cs), (.max, afterName? "max" cs), (.step, afterName? "step" cs),
  (.gte, afterSign? ['>', '='] cs), (.lte, afterSign? ['<', '='] cs),
  (.gt, afterSign? ['>'] cs), (.lt, afterSign? ['<'] cs)]

/-- The part that a text spells and the numeral of its value. -/
def part? (cs : List Char) : Option (Bound × List Char) :=
  (spellings cs).findSome? fun s => (s.2.bind numeralText?).map fun n => (s.1, n)

/-- The limits with the parts that texts spell. -/
def readParts (l : Limits) : List String → Except Fault Limits
  | [] => .ok l
  | p :: rest =>
    match part? p.toList with
    | none => readParts l rest
    | some (b, numeral) => do
      let x ← (Json.str (String.ofList numeral)).asFloat
      readParts (l.put b x) rest

/-- The limits with the members of an object, absent ones left out. -/
def readMembers (ms : Object) (l : Limits) : List Bound → Except Fault Limits
  | [] => .ok l
  | b :: rest =>
    match Assoc.valueAt? b.name ms with
    | none => readMembers ms l rest
    | some .null => readMembers ms l rest
    | some v => do
      let x ← v.asFloat
      readMembers ms (l.put b x) rest

/-- The limits that are written as a value.  One that is no object is read by its notation, which a
value with too long an integer does not have. -/
def ofJson (v : Json) : Except Fault Limits :=
  if v.isFilled then
    match v with
    | .obj ms => readMembers ms {} Bound.all
    | w =>
      if maxDigits < w.longestInt then .error (.tooManyDigits w.longestInt)
      else readParts {} (Text.splitTrimmed (· == ';') w.display)
  else .ok {}

/-- A limit that a number violates. -/
inductive Violation where
  /-- The number is too small. -/
  | belowMin (limit : Binary64)
  /-- The number is too large. -/
  | aboveMax (limit : Binary64)
  /-- The number is between two steps. -/
  | offStep (step : Binary64)

/-- Whether the order of a number and a bound violates the bound. -/
def breaks (b : Bound) (value limit : Quantity) : Bool :=
  match b with
  | .min => value.lt limit
  | .gte => value.lt limit
  | .gt => value.le limit
  | .max => limit.lt value
  | .lte => limit.lt value
  | .lt => limit.le value
  | .step => false

/-- The bounds in the order in which they are checked. -/
def checkOrder : List Bound := [.min, .gte, .gt, .max, .lte, .lt]

/-- The violation of a bound. -/
def violationOf (b : Bound) (limit : Binary64) : Violation :=
  match b with
  | .min => .belowMin limit
  | .gte => .belowMin limit
  | .gt => .belowMin limit
  | _ => .aboveMax limit

/-- The first of some bounds that a value violates. -/
def firstBroken? (l : Limits) (value : Json) : List Bound → Except Fault (Option Violation)
  | [] => .ok none
  | b :: rest =>
    match l.get? b with
    | none => firstBroken? l value rest
    | some limit =>
      match value.quantity? with
      | none => .error (.notDefined "comparison" value.kindName)
      | some q =>
        if breaks b q limit.quantity then .ok (some (violationOf b limit))
        else firstBroken? l value rest

/-- The difference of a number and the value that steps are measured from. -/
def distance (value base : Json) : Except Fault Json :=
  match value, base with
  | .int n, .int m => .ok (.int (n - m))
  | .bool b, .int m => .ok (.int ((if b then 1 else 0) - m))
  | v, w =>
    match v.quantity? with
    | none => .error (.notDefined "difference" v.kindName)
    | some _ => do
      let x ← v.asFloat
      let y ← w.asFloat
      pure (.float (x.sub y))

/-- What the notation of a value denotes as a decimal, if anything.  An integer with too many digits
has no notation. -/
def decimalText? (v : Json) : Except Fault (Option DecimalText) :=
  if maxDigits < v.longestInt then .error (.tooManyDigits v.longestInt)
  else .ok (DecimalText.read? v.display)

/-- One value is an integer multiple of another, both read in decimal notation.  It fails when one
of them has no notation, or the division leaves too large a number. -/
def isMultiple (value step : Json) : Except Fault Bool := do
  let some v ← decimalText? value | return false
  let some s ← decimalText? step | return false
  match v.remainder s with
  | .zero => return true
  | .nonzero => return false
  | .tooLarge => throw .remainderTooLarge
  | .undefined => return false

/-- The first limit that a number violates: the bounds in their order, then the step. -/
def violation? (l : Limits) (value : Json) : Except Fault (Option Violation) := do
  match ← firstBroken? l value checkOrder with
  | some v => pure (some v)
  | none =>
    match l.step with
    | none => pure none
    | some step =>
      if step.isZero then pure none
      else
        let d ← distance value l.stepBase
        if ← isMultiple d (.float step) then pure none else pure (some (.offStep step))

namespace Violation

/-- The code of a violation. -/
def code : Violation → String
  | .belowMin _ => "min"
  | .aboveMax _ => "max"
  | .offStep _ => "step"

/-- The message of a violation and the values of its placeholders. -/
def notice : Violation → Message × Object
  | .belowMin x => (.numberBelowMin, [("limit", .str (Json.float x).summary)])
  | .aboveMax x => (.numberAboveMax, [("limit", .str (Json.float x).summary)])
  | .offStep x => (.numberStep, [("step", .str (Json.float x).summary)])

/-- The wording of a violation. -/
def message (v : Violation) (overrides : Fields) : Except Fault String :=
  v.notice.1.render overrides v.notice.2

end Violation

end Limits

end Questionnaire
