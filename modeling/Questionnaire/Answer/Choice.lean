import Questionnaire.Json.Entries
import Questionnaire.Text.CaseFree

/-!
# Choices

An answer chooses an option by naming it, in any case, or by naming a part of it that no other
option shares.

## Main Definitions

* `Answer.choose?` - the option that an answer chooses
* `Answer.chooseMany?` - the options that an answer chooses
* `Answer.chooseGiven?`, `Answer.chooseManyGiven?` - the same for options given as data
-/

namespace Questionnaire.Answer

/-- The words of assent that may stand before a choice. -/
def assentWords : List String := ["כן", "yes"]

/-- The marks that separate a word of assent from a choice. -/
def assentMarks : List Char := [',', ':', '.', '-', '–']

/-- What follows a word of assent and its mark, without the blanks between them. -/
def afterAssent? (cs : List Char) : Option (List Char) :=
  match assentWords.findSome? fun w => Text.dropWord? w.toList cs with
  | none => none
  | some rest =>
    match rest.dropWhile Unicode.isBlank with
    | [] => none
    | c :: rest =>
      if assentMarks.contains c then some (rest.dropWhile Unicode.isBlank) else none

/-- A trimmed answer without a word of assent, unless nothing is left then. -/
def withoutAssent (s : String) : String :=
  match afterAssent? s.toList with
  | none => s
  | some rest =>
    let shorter := Text.trim (String.ofList rest)
    if shorter = "" then s else shorter

/-- The first option that is equal to a text up to case. -/
def sameOption? (s : String) (options : List String) : Option String :=
  options.find? fun o => Unicode.fold o == Unicode.fold s

/-- One of two texts lies inside the other up to case. -/
def overlaps (s o : String) : Bool :=
  Text.occursIn (Unicode.fold s) (Unicode.fold o) || Text.occursIn (Unicode.fold o) (Unicode.fold s)

/-- The option that a trimmed text chooses: one that is equal to it, or else the only one that
overlaps it. -/
def resolve? (s : String) (options : List String) : Option String :=
  match sameOption? s options with
  | some o => some o
  | none =>
    match options.filter (overlaps s) with
    | [o] => some o
    | _ => none

/-- The option that an answer chooses. -/
def choose? (answer : String) (options : List String) : Option String :=
  let s := Text.trim answer
  if s = "" ∨ options = [] then none else resolve? (withoutAssent s) options

/-- A character that separates choices. -/
def isSeparator (c : Char) : Bool := c == ',' || c == ';' || c == '|' || c == '\n'

/-- The options that the parts choose, each once, if every part chooses one; `chosen` holds those of
the parts before. -/
def chooseEach? (options : List String) (chosen : List String) :
    List String → Option (List String)
  | [] => some chosen
  | p :: rest =>
    match choose? p options with
    | none => none
    | some o => chooseEach? options (if chosen.contains o then chosen else chosen ++ [o]) rest

/-- The options that an answer chooses.  A whole answer that is an option chooses that one, so an
option may hold separators. -/
def chooseMany? (answer : String) (options : List String) : Option (List String) :=
  let s := Text.trim answer
  if s = "" ∨ options = [] then none
  else
    match sameOption? s options with
    | some o => some [o]
    | none =>
      match Text.splitTrimmed isSeparator s with
      | [] => none
      | p :: rest => chooseEach? options [] (p :: rest)

/-- The options, given as data, among which a text is looked for.  An option that is no text is
refused, unless one that is equal to the text stands before it. -/
def optionsGiven (s : String) (options : Json) : Except Fault (List String) :=
  if options.isFilled then do
    let items ← options.itemsOver
    let texts := (items.takeWhile (·.text?.isSome)).filterMap Json.text?
    match items.find? (·.text?.isNone) with
    | none => pure texts
    | some v =>
      if (sameOption? s texts).isSome then pure texts
      else throw (.noPart v.kindName "casefold")
  else .ok []

/-- The option that an answer chooses among options given as data. -/
def chooseGiven? (answer : String) (options : Json) : Except Fault (Option String) :=
  let s := Text.trim answer
  if s = "" then .ok none else choose? s <$> optionsGiven (withoutAssent s) options

/-- The options that an answer chooses among options given as data. -/
def chooseManyGiven? (answer : String) (options : Json) : Except Fault (Option (List String)) :=
  let s := Text.trim answer
  if s = "" then .ok none else chooseMany? s <$> optionsGiven s options

end Questionnaire.Answer
