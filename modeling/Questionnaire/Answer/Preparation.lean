import Questionnaire.Catalog.Basic
import Questionnaire.Text.CaseFree

/-!
# Preparing answers

Before an answer is read it may be prepared: replaced, completed by further values, or set aside so
that the question is asked again.

## Main Definitions

* `Answer.given` - the text of an answer
* `Preparer` - what prepares answers
* `Preparer.continueIntent` - sets answers such as "go on" aside
* `Preparer.chain` - several preparers one after the other
-/

namespace Questionnaire

/-- The text of an answer.  A value that is not filled is an empty answer, and any other value than
a text is refused. -/
def Answer.given (v : Json) : Except Fault String :=
  match v.text? with
  | some s => .ok s
  | none => if v.isFilled then .error (.noPart v.kindName "strip") else .ok ""

/-- A prepared answer. -/
structure Prepared where
  /-- The answer. -/
  answer : String
  /-- The question is asked again. -/
  reask : Bool := false
  /-- Further values. -/
  extra : Fields := []

/-- What prepares an answer to a question, given the collected values. -/
abbrev Preparer := String → Option Question → Fields → Prepared

namespace Preparer

/-- The words for going on. -/
def continueWords : List String := [
  "continue", "next", "go on", "ok", "okay", "let's go",
  "המשך", "נמשיך", "הלאה", "יאללה", "אוקיי"]

/-- A character that may follow a word for going on. -/
def mayFollow (c : Char) : Bool := Unicode.isBlank c || c == '.' || c == '!'

/-- A text is one of the words, in any case, followed by blanks, points and exclamation marks. -/
def isOneOf (words : List String) (s : String) : Bool :=
  words.any fun w =>
    match Text.dropWord? w.toList s.toList with
    | some rest => rest.all mayFollow
    | none => false

/-- The answers to a question are taken as they are. -/
def takesAnything (q : Option Question) : Bool := q.any (·.dataType.isFreeText)

/-- A preparer that sets answers aside that only say to go on.  Free text may say anything. -/
def continueIntent (words : List String) : Preparer := fun raw q _ =>
  let s := Text.trim raw
  let wanted := if words.isEmpty then continueWords else words
  { answer := s, reask := !takesAnything q && isOneOf wanted s }

/-- Several preparers one after the other, each seeing the answer of the one before.  The first that
sets the answer aside ends the chain; `extra` holds the values of those before. -/
def run : List Preparer → Fields → Preparer
  | [], extra => fun raw _ _ => { answer := raw, extra := extra }
  | p :: rest, extra => fun raw q values =>
    let r := p raw q values
    let extra := Assoc.overlay extra r.extra
    if r.reask then { answer := r.answer, reask := true, extra := extra }
    else run rest extra r.answer q values

/-- The members of a chain, each a preparer; anything else is given by its kind. -/
def members : List (Except String Preparer) → Except Fault (List Preparer)
  | [] => .ok []
  | .error kind :: _ => .error (.notPreparer kind)
  | .ok p :: rest => do
    let ps ← members rest
    pure (p :: ps)

/-- A chain of preparers. -/
def chain (parts : List (Except String Preparer)) : Except Fault Preparer := do
  let ps ← members parts
  pure (run ps [])

end Preparer

end Questionnaire
