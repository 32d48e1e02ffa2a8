import Questionnaire.Catalog.Basic
import Questionnaire.Condition.Evaluation

/-!
# The state of a questionnaire

The collected values while a turn is worked on, with the form document that they are written into
and a note for each field where its value comes from.  A provisional value is a default: its
question is still asked.

## Main Definitions

* `FieldStatus` - where a value comes from
* `State` - the collected values and what follows from them
* `State.ofFields` - the state of stored values
* `State.collected` - the values that are worth storing

## Design Notes

Computed variables and enabled modules follow from the values, so `State.refresh` is run after every
write.
-/

namespace Questionnaire

/-- The value of a field, absent if there is none. -/
def Fields.at (fields : Fields) (key : Json) : Except Fault Json := do
  let k ← key.asKey
  pure ((Assoc.valueAt? k fields).getD .null)

/-- Where the value of a field comes from. -/
inductive FieldStatus where
  /-- There is no value. -/
  | unset
  /-- It is a default. -/
  | defaulted
  /-- It was given, or derived from what was given. -/
  | answered
  deriving DecidableEq, Repr

namespace FieldStatus

/-- The name of a status. -/
def name : FieldStatus → String
  | .unset => "unset"
  | .defaulted => "defaulted"
  | .answered => "answered"

end FieldStatus

/-- The collected values and what follows from them. -/
structure State where
  /-- The form document. -/
  document : Json
  /-- The values of all fields. -/
  values : Fields
  /-- The coverage modules whose conditions hold. -/
  enabled : List Json
  /-- Where the values come from. -/
  status : Assoc Json FieldStatus

namespace State

/-- Where the value of a field comes from. -/
def statusOf (s : State) (key : Json) : FieldStatus := (Assoc.valueAt? key s.status).getD .unset

/-- The value of a field, absent if there is none. -/
def valueOf (s : State) (key : Json) : Json := (Assoc.valueAt? key s.values).getD .null

/-- Whether a condition holds. -/
def holds (s : State) (condition : Json) : Bool := Condition.holds condition s.values

/-- The fields whose values are defaults. -/
def defaultedKeys (s : State) : List Json :=
  (s.status.filter fun e => e.2 == .defaulted).map (·.1)

/-- The first value of some fields that is not zero, and zero without one. -/
def termValue (values : Fields) : List Json → Except Fault Binary64
  | [] => .ok (.zero false)
  | key :: rest => do
    let v ← values.at key
    match ← v.number? with
    | some x => if x.isZero then termValue values rest else pure x
    | none => termValue values rest

/-- The products of terms and their factors. -/
def termProducts (values : Fields) (terms : List ComputedTerm) : Except Fault (List Binary64) :=
  terms.mapM fun t => do
    let x ← termValue values t.fields
    pure (x.mul t.factor)

/-- The result of an operation on the terms. -/
def combine (op : ComputedOp) (products : List Binary64) : Binary64 :=
  match op with
  | .sum => products.foldl Binary64.add (.zero false)
  | .firstNonzero => (products.find? (!·.isZero)).getD (.zero false)

/-- The values with computed variables written one after the other. -/
def compute (values : Fields) : List ComputedVar → Except Fault Fields
  | [] => .ok values
  | c :: rest => do
    let products ← termProducts values c.terms
    compute (Assoc.put c.target (Json.ofWhole (combine c.op products)) values) rest

/-- The keys of the modules whose conditions hold, each once. -/
def enabledModules (values : Fields) : List CoverageModule → List Json → Except Fault (List Json)
  | [], found => .ok found
  | m :: rest, found =>
    if Condition.holds m.enableIf values then do
      let key ← m.key.asKey
      enabledModules values rest (if found.contains key then found else found ++ [key])
    else enabledModules values rest found

/-- The state with computed variables and enabled modules brought up to date. -/
def refresh (c : Catalog) (s : State) : Except Fault State := do
  let values ← compute s.values c.computedVars
  let enabled ← enabledModules values c.modules []
  pure { s with values := values, enabled := enabled }

/-- The status of stored values. -/
def storedStatus (stored : Fields) : Assoc Json FieldStatus :=
  (stored.filter fun e => e.2.isAnswered).map fun e => (e.1, .answered)

/-- The values and their status, completed by defaults. -/
def withDefaults : Fields → Fields × Assoc Json FieldStatus → Fields × Assoc Json FieldStatus
  | [], acc => acc
  | d :: rest, (values, status) =>
    if (Json.null).equal ((Assoc.valueAt? d.1 values).getD .null) then
      withDefaults rest (Assoc.put d.1 d.2 values, Assoc.put d.1 .defaulted status)
    else withDefaults rest (values, status)

/-- The document with the answered values of questions written at their paths. -/
def writeAnswered (values : Fields) (status : Assoc Json FieldStatus) :
    List Question → Json → Except Fault Json
  | [], document => .ok document
  | q :: rest, document => do
    let key ← q.fieldKey.asKey
    if (Assoc.valueAt? key status).getD .unset = .answered ∧ q.jsonPath ≠ "" then
      let document ← Path.set document q.jsonPath ((Assoc.valueAt? key values).getD .null)
      writeAnswered values status rest document
    else writeAnswered values status rest document

/-- The state of stored values.  Without a stored document one is built from the values. -/
def ofFields (c : Catalog) (stored : Fields) (document : Option Json) : Except Fault State := do
  let (values, status) := withDefaults c.defaults (stored, storedStatus stored)
  let document ←
    match document with
    | some d => pure d
    | none => writeAnswered values status (c.questions.map (·.2)) (.obj [])
  refresh c ⟨document, values, [], status⟩

/-- The values that are worth storing: neither defaults nor computed variables. -/
def collected (c : Catalog) (s : State) : Fields :=
  s.values.filter fun e =>
    !(s.statusOf e.1 == .defaulted) && !(c.computedTargets.contains e.1)

end State

/-- A catalog can be used when the targets of its computed variables are names. -/
def Catalog.usable (c : Catalog) : Except Fault Unit := do
  let _ ← c.computedTargets.mapM Json.asKey
  pure ()

end Questionnaire
