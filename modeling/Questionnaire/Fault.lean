import Questionnaire.Catalog.Problem
import Questionnaire.Json.Reader

/-!
# Faults

Everything that can stop an operation.  A rejected answer is not among them: it is an outcome of a
turn and leads to the question being asked again.

## Main Definitions

* `Fault` - the cause of a failure
* `Fault.message` - its wording
* `FileProblem` - why a file cannot be used
-/

namespace Questionnaire

/-- Why a file cannot be used. -/
inductive FileProblem where
  /-- It does not exist, or its directory does not. -/
  | missing
  /-- It is a directory. -/
  | isDirectory
  /-- A part of its path is used as a directory and is none. -/
  | notDirectory
  /-- A part of its path is too long. -/
  | nameTooLong
  deriving DecidableEq, Repr

/-- What is said of a problem with a file. -/
def FileProblem.message : FileProblem → String
  | .missing => "No such file or directory"
  | .isDirectory => "Is a directory"
  | .notDirectory => "Not a directory"
  | .nameTooLong => "File name too long"

/-- The cause of a failure. -/
inductive Fault where
  /-- A value of some kind has no part of that name. -/
  | noPart (kind part : String)
  /-- A value that is walked over is not a collection. -/
  | notCollection (kind : String)
  /-- An array or an object stands where a key is needed. -/
  | notKey (kind : String)
  /-- An operation is not defined for a value of that kind. -/
  | notDefined (operation kind : String)
  /-- A value of some kind stands where a text is needed. -/
  | notText (kind : String)
  /-- A text that stands for a number is none. -/
  | notNumeral (text : String)
  /-- An entry of a list of pairs has another number of parts than two. -/
  | notPair (index length : Nat)
  /-- An entry of a list of pairs has no parts. -/
  | notSequence (index : Nat)
  /-- A pattern is not well formed. -/
  | badPattern (reason : String)
  /-- A number is outside the range of floating point numbers. -/
  | tooLarge
  /-- The remainder of a division is too large for a result. -/
  | remainderTooLarge
  /-- A text is too long to be laid out. -/
  | noSpace
  /-- A required entry is missing. -/
  | missingEntry (name : String)
  /-- A position is outside a list. -/
  | noItem
  /-- A stored text is not a written value. -/
  | unreadable
  /-- An integer in a text has more digits than are read. -/
  | tooManyDigits (count : Nat)
  /-- A file cannot be used. -/
  | file (problem : FileProblem) (path : String)
  /-- Values of several kinds have no order among each other. -/
  | notOrdered
  /-- A stored pointer has an unknown status. -/
  | unknownStatus (status : Json)
  /-- A message has no such identifier. -/
  | unknownMessage (name : String)
  /-- The file of a catalog does not exist. -/
  | missingFile (path : String)
  /-- A path has no segments. -/
  | emptyPath (path : Json)
  /-- The first segment of a path does not fit the document. -/
  | unfitRoot (path : Json) (expected actual : String)
  /-- A catalog is refused. -/
  | refused (cause : Catalog.Refusal)
  /-- The pointer of a user names a question that does not exist. -/
  | unknownQuestion (qid : Json) (user : String)
  /-- Routing makes no progress. -/
  | noEligibleTarget (user : String) (section_ : Json) (attempts : Nat)
  /-- A collaborator of the flow lacks an operation. -/
  | missingOperation (collaborator operation : String)
  /-- A member of a chain cannot prepare answers. -/
  | notPreparer (kind : String)

namespace Fault

/-- The wording of a failure. -/
def message : Fault → String
  | .noPart kind part => "'" ++ kind ++ "' object has no attribute '" ++ part ++ "'"
  | .notCollection kind => "'" ++ kind ++ "' object is not iterable"
  | .notKey kind => "unhashable type: '" ++ kind ++ "'"
  | .notDefined operation kind => operation ++ ", not '" ++ kind ++ "'"
  | .notText kind => "expected string or bytes-like object, got '" ++ kind ++ "'"
  | .notNumeral text => "could not convert string to float: " ++ Text.quote text
  | .notPair index length =>
    s!"dictionary update sequence element #{index} has length {length}; 2 is required"
  | .notSequence index =>
    s!"cannot convert dictionary update sequence element #{index} to a sequence"
  | .badPattern reason => reason
  | .tooLarge => "int too large to convert to float"
  | .remainderTooLarge => "remainder too large"
  | .noSpace => ""
  | .missingEntry name => Text.quote name
  | .noItem => "list index out of range"
  | .unreadable => "Expecting value"
  | .tooManyDigits count =>
    s!"Exceeds the limit ({maxDigits} digits) for integer string conversion: value has {count} "
      ++ "digits; use sys.set_int_max_str_digits() to increase the limit"
  | .file problem path => problem.message ++ ": " ++ Text.quote path
  | .notOrdered => "'<' not supported between instances of different kinds"
  | .unknownStatus status => status.literal ++ " is not a valid FlowStatus"
  | .unknownMessage name => Text.quote name ++ " is not a valid MessageID"
  | .missingFile path => "Catalog not found: " ++ path
  | .emptyPath path => "Empty json path: " ++ path.literal
  | .unfitRoot path expected actual =>
    "Json path " ++ path.literal ++ " needs a " ++ expected ++ " at the root, got " ++ actual
  | .refused cause => cause.message
  | .unknownQuestion qid user =>
    "Unknown question id '" ++ qid.display ++ "' (pointer of user '" ++ user ++ "')"
  | .noEligibleTarget user section_ attempts =>
    "No eligible routing target for user '" ++ user ++ "' (last section '" ++ section_.display
      ++ s!"', {attempts} attempts)"
  | .missingOperation collaborator operation =>
    collaborator ++ " must have callable " ++ operation ++ "() method"
  | .notPreparer kind => kind ++ " must implement preprocess()"

/-- The failure of reading a text that denotes no value. -/
def ofReadError : Json.ReadError → Fault
  | .malformed => .unreadable
  | .tooManyDigits count => .tooManyDigits count

end Fault

/-- The value that a text denotes, which has to denote one. -/
def Json.require (s : String) : Except Fault Json :=
  match Json.read s with
  | .ok v => .ok v
  | .error e => .error (.ofReadError e)

/-- A key, or the failure of using an array or an object as one. -/
def Json.asKey (v : Json) : Except Fault Json :=
  if v.isKey then .ok v else .error (.notKey v.kindName)

end Questionnaire
