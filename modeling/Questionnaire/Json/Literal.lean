import Questionnaire.Json.Basic
import Questionnaire.Number.Notation
import Questionnaire.Text.Quoted

/-!
# Literal notation

How a value is shown inside messages: texts are quoted, truth values and the absent value are
words, lists and objects show their parts.

## Main Definitions

* `Json.literal` - the literal notation of a value
* `Json.display` - a text as it is, any other value in literal notation
* `Fields.literal` - the literal notation of named values
* `Fields.shown` - named values as an object with names for reading
-/

namespace Questionnaire

/-- An integer in decimal notation. -/
def renderInt (n : Int) : String := minusIf (n < 0) ++ n.natAbs.repr

/-- Parts between brackets, separated by a comma and a space. -/
def bracketed (opening closing : String) (parts : List String) : String :=
  opening ++ String.intercalate ", " parts ++ closing

namespace Json

mutual

/-- The literal notation of a value. -/
def literal : Json → String
  | .null => "None"
  | .bool b => if b then "True" else "False"
  | .int n => renderInt n
  | .float x => x.render
  | .str s => Text.quote s
  | .arr xs => bracketed "[" "]" (literalItems xs)
  | .obj ms => bracketed "\x7b" "\x7d" (literalMembers ms)

/-- The literal notations of the items of a list. -/
def literalItems : List Json → List String
  | [] => []
  | x :: xs => literal x :: literalItems xs

/-- The literal notations of the members of an object. -/
def literalMembers : List (String × Json) → List String
  | [] => []
  | m :: ms => (Text.quote m.1 ++ ": " ++ literal m.2) :: literalMembers ms

end

/-- A text as it is, and any other value in literal notation. -/
def display : Json → String
  | .str s => s
  | v => v.literal

@[simp] theorem display_str (s : String) : display (.str s) = s := rfl

end Json

/-- The literal notation of named values. -/
def Fields.literal (fields : Fields) : String :=
  bracketed "\x7b" "\x7d" (fields.map fun e => e.1.literal ++ ": " ++ e.2.literal)

/-- Named values as an object for reading: a name that is no text stands in literal notation. -/
def Fields.shown (fields : Fields) : Json := .obj (fields.map fun e => (e.1.display, e.2))

end Questionnaire
