import Questionnaire.Bookkeeping
import Questionnaire.Catalog.Basic
import Questionnaire.Condition.Evaluation
import Questionnaire.Json.Entries

/-!
# Routing between sections

The sections of a conversation are the processes of the catalog.  The next one is the first in the
order of routing that is not completed and whose condition holds, unless a completed section forces
its successor.

## Main Definitions

* `Routing.completed` - the completed sections that collected values record
* `Routing.complete` - the completed sections with one more
* `Routing.next`, `Routing.nextAfter` - the next section, if there is one
* `Routing.nextGiven`, `Routing.nextAfterGiven` - the same for completed sections given as data
-/

namespace Questionnaire.Routing

/-- The distinct texts among values, blanks around them and blank ones left out; `found` holds those
of the values before. -/
def distinctTexts (found : List Json) : List Json → List Json
  | [] => found
  | v :: rest =>
    let key := Text.trim v.display
    if key = "" ∨ found.contains (.str key) = true then distinctTexts found rest
    else distinctTexts (found ++ [.str key]) rest

/-- The completed sections that collected values record, as a list or in written form. -/
def completed (fields : Fields) : List Json :=
  match Json.decoded (.arr []) ((Assoc.valueAt? Bookkeeping.completed fields).getD .null) with
  | .arr items => distinctTexts [] items
  | _ => []

/-- The completed sections with one more. -/
def complete (done : List Json) (key : Json) : List Json :=
  if key.isFilled && !done.contains key then done ++ [key] else done

/-- A process that is not completed and whose condition holds. -/
def isEligible (c : Catalog) (done : List Json) (fields : Fields) (key : Json) : Bool :=
  !done.contains key &&
    match c.process? key with
    | some p => Condition.holds p.askIf fields
    | none => false

/-- The next section, none if nothing is left. -/
def next (c : Catalog) (done : List Json) (fields : Fields) : Option Json :=
  c.processOrder.find? (isEligible c done fields)

/-- The forced successor of a completed section, unless that is completed. -/
def successor? (c : Catalog) (finished : Json) (done : List Json) : Option Json :=
  match c.process? finished with
  | some p =>
    if p.forcedNext.isFilled && !done.contains p.forcedNext then some p.forcedNext else none
  | none => none

/-- The section that follows a completed one: its forced successor, or the next section. -/
def nextAfter (c : Catalog) (finished : Json) (done : List Json) (fields : Fields) : Option Json :=
  (successor? c finished done).or (next c done fields)

/-- The next section after completed sections that are given as data, which have to be keys. -/
def nextGiven (c : Catalog) (done : Json) (fields : Fields) : Except Fault (Option Json) := do
  let items ← done.itemsOver
  let keys ← items.mapM Json.asKey
  pure (next c keys fields)

/-- The section that follows a completed one, where the completed sections are given as data.  A
forced successor is found without asking whether they are keys. -/
def nextAfterGiven (c : Catalog) (finished done : Json) (fields : Fields) :
    Except Fault (Option Json) := do
  let items ← done.itemsOver
  let key ← finished.asKey
  match successor? c key items with
  | some next => pure (some next)
  | none => nextGiven c (.arr items) fields

end Questionnaire.Routing
