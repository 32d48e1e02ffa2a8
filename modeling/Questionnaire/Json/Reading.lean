import Questionnaire.Fault
import Questionnaire.Json.Reader
import Questionnaire.Json.Writer
import Questionnaire.Unicode.Case

/-!
# How stored values are read

A stored value is asked four things: whether it is there at all, which number it denotes, how it is
shown to a user, and what it holds when it is a text that was written from other data.

## Main Definitions

* `Json.isAnswered` - a value that was given, placeholders included
* `Json.isPresent` - a value that was given and is no placeholder
* `Json.number?` - the number that a value denotes, if any
* `Json.asFloat` - the number that a value has to denote
* `Json.summary` - the value as a user sees it
* `Json.decoded` - the data that a stored text holds
-/

namespace Questionnaire

namespace Json

/-- The words that stand for a missing value. -/
def placeholders : List String := ["null", ":null", "undefined", ":undefined"]

/-- A value is answered unless it is absent, a blank text or an empty list. -/
def isAnswered : Json → Bool
  | .null => false
  | .str s => Text.trim s != ""
  | .arr xs => !xs.isEmpty
  | _ => true

/-- A text that stands for a missing value, in any case and between blanks. -/
def isPlaceholder (s : String) : Bool := placeholders.contains (Unicode.lower (Text.trim s))

/-- A value is present when it is answered and no placeholder. -/
def isPresent : Json → Bool
  | .str s => Text.trim s != "" && !isPlaceholder s
  | v => v.isAnswered

theorem isAnswered_of_isPresent {v : Json} (h : v.isPresent = true) : v.isAnswered = true := by
  cases v <;> simp_all [isPresent, isAnswered]

/-- The number that a text denotes, commas left out. -/
def textNumber? (s : String) : Option Binary64 :=
  let body := Text.without (· == ',') (Text.trim s)
  if body = "" then none else Binary64.read? body

/-- The number that a value denotes, if any.  It fails for an integer beyond the range of floating
point numbers. -/
def number? : Json → Except Fault (Option Binary64)
  | .int n =>
    match Binary64.ofInt? n with
    | some x => .ok (some x)
    | none => .error .tooLarge
  | .float x => .ok (some x)
  | .str s => .ok (textNumber? s)
  | _ => .ok none

/-- A floating point number as a value: an integer when it is one. -/
def ofWhole (x : Binary64) : Json :=
  match x.toInt? with
  | some n => .int n
  | none => .float x

/-- A value as a floating point number, which it has to denote. -/
def asFloat : Json → Except Fault Binary64
  | .bool b => .ok (.ofInt (if b then 1 else 0))
  | .int n =>
    match Binary64.ofInt? n with
    | some x => .ok x
    | none => .error .tooLarge
  | .float x => .ok x
  | .str s =>
    match Binary64.read? s with
    | some x => .ok x
    | none => .error (.notNumeral s)
  | v => .error (.notDefined "float() argument must be a string or a real number" v.kindName)

mutual

/-- A value as a user sees it. -/
def summary : Json → String
  | .null => ""
  | .bool b => if b then "yes" else "no"
  | .int n => renderGrouped n
  | .float x =>
    match x.toInt? with
    | some n => renderGrouped n
    | none => x.renderFixed 2
  | .str s => s
  | .arr xs => String.intercalate ", " (summaryItems xs)
  | .obj ms => (Json.obj ms).write

/-- The items of a list as a user sees them, empty ones left out. -/
def summaryItems : List Json → List String
  | [] => []
  | x :: xs => if summary x = "" then summaryItems xs else summary x :: summaryItems xs

end

/-- The data that a stored value holds: a text is read, and `default` steps in for a text that
holds nothing or cannot be read. -/
def decoded (default : Json) : Json → Json
  | .null => default
  | .str s => (Json.read? (Text.trim s)).getD default
  | v => v

end Json

end Questionnaire
