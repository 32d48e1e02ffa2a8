import Questionnaire.Answer.Reading
import Questionnaire.State.Basic

/-!
# Applying answers

An answer is written into its field and into the form document.  Derived rules then write the values
that follow from it.  What they wrote is listed in the order of the fields, so it fails when fields
of different kinds were written.

## Main Definitions

* `State.applyValue`, `State.applyAnswer` - the state after an answer
* `State.applyDerived` - the state after all derived rules
-/

namespace Questionnaire

/-- An answer that was taken. -/
structure Applied where
  /-- The question. -/
  qid : Json
  /-- The field. -/
  fieldKey : Json
  /-- The value. -/
  value : Json

namespace State

/-- The document with a value written at a path; without a path it stays as it is. -/
def writeDocument (document : Json) (path : String) (value : Json) : Except Fault Json :=
  if path = "" then .ok document else Path.set document path value

/-- The state with a given value of a field. -/
def write (s : State) (key value : Json) : State :=
  { s with values := Assoc.put key value s.values, status := Assoc.put key .answered s.status }

/-- The state after a value was given for a question. -/
def applyValue (c : Catalog) (s : State) (q : Question) (value : Json) :
    Except Fault (State × Applied) := do
  let key ← q.fieldKey.asKey
  let document ← writeDocument s.document q.jsonPath value
  let s ← refresh c { s.write key value with document := document }
  pure (s, ⟨q.qid, key, value⟩)

/-- The state after an answer to a question, or the rejection of the answer. -/
def applyAnswer (c : Catalog) (s : State) (q : Question) (answer : String) :
    Except Fault (Except Answer.Rejection (State × Applied)) := do
  match ← Answer.read q answer c.messages with
  | .error r => pure (.error r)
  | .ok v => do
    let r ← applyValue c s q v
    pure (.ok r)

/-- The path that a derived rule writes to besides its target: that of the question it maps to.
A rule that maps to an unknown question has no effect. -/
def rulePath? (c : Catalog) (r : DerivedRule) : Option String :=
  if r.mapsTo.isFilled then (c.question? r.mapsTo).map (·.jsonPath) else some ""

/-- A field was given the value already. -/
def hasAnswer (s : State) (key value : Json) : Bool :=
  (s.valueOf key).equal value && s.statusOf key == .answered

/-- The state after one derived rule, and what was written so far. -/
def applyRule (c : Catalog) (r : DerivedRule) (s : State) (updates : Fields) :
    Except Fault (State × Fields) :=
  if s.holds r.setWhen then
    match rulePath? c r with
    | none => .ok (s, updates)
    | some path => do
      let key ← r.target.asKey
      if s.hasAnswer key r.value then pure (s, updates)
      else
        let document ← writeDocument s.document path r.value
        pure ({ s.write key r.value with document := document }, Assoc.put key r.value updates)
  else .ok (s, updates)

/-- The state after derived rules, each seeing what the ones before it wrote. -/
def applyRules (c : Catalog) : List DerivedRule → State → Fields → Except Fault (State × Fields)
  | [], s, updates => .ok (s, updates)
  | r :: rest, s, updates => do
    let (s, updates) ← applyRule c r s updates
    applyRules c rest s updates

/-- Keys have an order among each other when they are all texts or all numbers. -/
def areOrdered (keys : List Json) : Bool :=
  keys.length ≤ 1 || keys.all (·.text?.isSome) || keys.all (·.quantity?.isSome)

/-- The state after all derived rules, and what they wrote; computed variables are brought up to
date at the end. -/
def applyDerived (c : Catalog) (s : State) : Except Fault (State × Fields) := do
  let (derived, updates) ← applyRules c c.derivedRules s []
  if updates.isEmpty then pure (s, [])
  else do
    let derived ← refresh c derived
    if areOrdered (Assoc.keyList updates) then pure (derived, updates)
    else .error .notOrdered

end State

end Questionnaire
