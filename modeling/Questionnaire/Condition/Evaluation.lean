import Questionnaire.Condition.Parser
import Questionnaire.Json.Path

/-!
# Evaluation of conditions

Conditions are evaluated over what their names stand for, usually named values.  Comparisons are
tolerant: a truth value equals the words that mean it, and a number equals a text that denotes it.
A condition that is malformed or cannot be evaluated does not hold, and the reason is reported.

## Main Definitions

* `Condition.looselyEqual`, `Condition.isIn`, `Condition.compareValues` - the comparisons
* `Condition.Lookup` - what names stand for
* `Condition.Expr.eval` - the value of a tree
* `Condition.evaluate` - whether a condition holds, and what was wrong with it
* `Condition.evaluateWith` - the same, where what was wrong goes to a receiver
* `Condition.holds` - whether a condition holds over named values
* `Condition.checkSyntax` - what is wrong with the text of a condition
-/

namespace Questionnaire

namespace Json

/-- The words that mean true. -/
def trueWords : List String := ["true", "1", "yes", "y", "new", "כן", "חדש"]

/-- The words that mean false. -/
def falseWords : List String := ["false", "0", "no", "n", "existing", "לא", "קיים"]

/-- The words that mean a truth value. -/
def wordsFor (b : Bool) : List String := if b then trueWords else falseWords

/-- A text in the form in which words are compared. -/
def wordForm (s : String) : String := Unicode.lower (Text.trim s)

/-- Whether a value on its own counts as a condition that holds. -/
def isTruthy : Json → Bool
  | .str s => wordForm s != "" && !falseWords.contains (wordForm s)
  | v => v.isFilled

/-- Whether a stored value means the truth value `expected`. -/
def means (stored : Json) (expected : Bool) : Bool :=
  match stored with
  | .bool b => b == expected
  | v => v.isPresent && (wordsFor expected).contains (wordForm v.display)

end Json

/-- The value under a name, and otherwise the value at the path that the name spells. -/
def Fields.resolve (fields : Fields) (name : String) : Json :=
  match Assoc.valueAt? (.str name) fields with
  | some v => v
  | none =>
    if name.toList.contains '.' then
      match Path.keys name with
      | .key first :: rest =>
        Path.follow ((Assoc.valueAt? (.str first) fields).getD .null) rest
      | _ => .null
    else .null

namespace Condition

/-- What names stand for while a condition is evaluated. -/
abbrev Lookup := String → Except Fault Json

/-- Names stand for named values, and are absent if there are none. -/
def lookupIn (fields : Fields) : Lookup := fun name => .ok (fields.resolve name)

/-- Names stand for the parts of a value.  A value that is not filled has none, and neither has a
list or a text, but a name that occurs in one of these fails; a number has nothing to look into. -/
def lookupOver (values : Json) : Lookup :=
  match values with
  | .obj ms => lookupIn (Fields.ofObject ms)
  | .arr items => fun name =>
    if items.contains (.str name) then .error (.notDefined "position" "str") else .ok .null
  | .str s => fun name =>
    if Text.occursIn name s then .error (.notDefined "position" "str") else .ok .null
  | v => fun _ => if v.isFilled then .error (.notCollection v.kindName) else .ok .null

/-- A value is a number; truth values are not. -/
def isNumber : Json → Bool
  | .int _ => true
  | .float _ => true
  | _ => false

/-- A relation between the numbers that two values denote; it fails to hold when one of them denotes
none. -/
def relateNumbers (r : Quantity → Quantity → Bool) (left right : Json) : Except Fault Bool := do
  let a ← left.number?
  let b ← right.number?
  match a, b with
  | some x, some y => pure (r x.quantity y.quantity)
  | _, _ => pure false

/-- Equality with tolerance for truth values and numbers that are written as texts. -/
def looselyEqual (left right : Json) : Except Fault Bool :=
  match left, right with
  | l, .bool b => .ok (l.means b)
  | .bool b, r => .ok (r.means b)
  | .null, .null => .ok true
  | .null, _ => .ok false
  | _, .null => .ok false
  | l, r =>
    if isNumber l || isNumber r then relateNumbers Quantity.eq l r
    else
      match l, r with
      | .str s, .str t => .ok (Text.trim s == Text.trim t)
      | _, _ => .ok (l == r)

/-- The text that is searched for a needle. -/
def needleText (needle : Json) : String := Text.trim needle.display

/-- A value lies in a list, items being compared by their texts, or in a text. -/
def isIn (container needle : Json) : Bool :=
  match needle with
  | .null => false
  | _ =>
    if needleText needle = "" then false
    else
      match container with
      | .arr items => items.any fun item => needleText item == needleText needle
      | .str s => Text.occursIn (needleText needle) s
      | _ => false

/-- A comparison of two values. -/
def compareValues (op : Comparison) (left right : Json) : Except Fault Bool :=
  match op with
  | .equal => looselyEqual left right
  | .doubleEqual => looselyEqual left right
  | .tripleEqual => looselyEqual left right
  | .unequal => (!·) <$> looselyEqual left right
  | .strictUnequal => (!·) <$> looselyEqual left right
  | .greater => relateNumbers (fun x y => y.lt x) left right
  | .greaterEqual => relateNumbers (fun x y => y.le x) left right
  | .less => relateNumbers Quantity.lt left right
  | .lessEqual => relateNumbers Quantity.le left right

/-- The value of a tree.  The second operand of a conjunction or disjunction is evaluated only when
the first does not decide. -/
def Expr.eval (lookup : Lookup) : Expr → Except Fault Json
  | .literal v => .ok v
  | .field name => lookup name
  | .not x => do
    let v ← x.eval lookup
    pure (.bool !v.isTruthy)
  | .conj l r => do
    let v ← l.eval lookup
    if v.isTruthy then
      let w ← r.eval lookup
      pure (.bool w.isTruthy)
    else pure (.bool false)
  | .disj l r => do
    let v ← l.eval lookup
    if v.isTruthy then pure (.bool true)
    else
      let w ← r.eval lookup
      pure (.bool w.isTruthy)
  | .compare op l r => do
    let v ← l.eval lookup
    let w ← r.eval lookup
    let b ← compareValues op v w
    pure (.bool b)
  | .includes c n => do
    let v ← c.eval lookup
    let w ← n.eval lookup
    pure (.bool (isIn v w))
  | .presentCall x => do
    let v ← x.eval lookup
    pure (.bool v.isPresent)
  | .includesCall c n => do
    let v ← c.eval lookup
    let w ← n.eval lookup
    pure (.bool (isIn v w))

/-- Why a condition could not be evaluated. -/
inductive Failure where
  /-- The text is no condition. -/
  | malformed (cause : SyntaxError)
  /-- The condition is not a text. -/
  | notText
  /-- The evaluation failed. -/
  | stopped (cause : Fault)

/-- A condition that could not be evaluated, as it is reported. -/
structure Report where
  /-- The text of the condition. -/
  expression : String
  /-- What went wrong. -/
  failure : Failure

/-- Whether a tree holds. -/
def Expr.holds (lookup : Lookup) (tree : Expr) : Except Fault Bool := do
  let v ← tree.eval lookup
  pure v.isTruthy

/-- Whether the text of a condition holds. -/
def evaluateText (s : String) (lookup : Lookup) : Bool × Option Report :=
  if Text.isBlank s then (true, none)
  else
    match parse (Text.trim s) with
    | .error e => (false, some ⟨s, .malformed e⟩)
    | .ok tree =>
      match tree.holds lookup with
      | .error e => (false, some ⟨s, .stopped e⟩)
      | .ok b => (b, none)

/-- Whether a condition holds, with a report when it could not be evaluated.  An absent or blank
condition holds. -/
def evaluate (condition : Json) (lookup : Lookup) : Bool × Option Report :=
  match condition with
  | .null => (true, none)
  | .str s => evaluateText s lookup
  | v => (false, some ⟨v.literal, .notText⟩)

/-- A receiver of reports.  It may fail, and what it does is seen in a state. -/
abbrev Sink (ε σ : Type) := Report → ExceptT ε (StateM σ) Unit

/-- Hand a report to its receiver.  A failure of the receiver ends there. -/
def Report.sendTo {ε σ : Type} (sink : Sink ε σ) (report : Report) : StateM σ Unit := do
  let _ ← (sink report).run
  pure ()

/-- Whether a condition holds, where a report goes to a receiver. -/
def evaluateWith {ε σ : Type} (sink : Sink ε σ) (condition : Json) (lookup : Lookup) :
    StateM σ Bool := do
  let (result, report?) := evaluate condition lookup
  match report? with
  | some report => report.sendTo sink
  | none => pure ()
  pure result

/-- Whether a condition holds over named values. -/
def holds (condition : Json) (fields : Fields) : Bool := (evaluate condition (lookupIn fields)).1

/-- What is wrong with the text of a condition.  A value that is not filled is no condition at
all. -/
def checkSyntax (condition : Json) : Option SyntaxError :=
  if condition.isFilled && !Text.isBlank condition.display then
    match parse (Text.trim condition.display) with
    | .error e => some e
    | .ok _ => none
  else none

theorem evaluate_null (lookup : Lookup) : evaluate .null lookup = (true, none) := rfl

theorem evaluate_blank {s : String} (h : Text.isBlank s = true) (lookup : Lookup) :
    evaluate (.str s) lookup = (true, none) := by
  simp [evaluate, evaluateText, h]

end Condition

end Questionnaire
