import Questionnaire.Fault

/-!
# Writing data

The two written forms of a value: on one line, and with one member or item a line.  Characters
beyond ASCII are written as they are.

## Main Definitions

* `Json.write` - a value on one line
* `Json.dump` - the same for a value whose integers may be too long to be written
* `Json.writeIndented` - a value with two spaces of indentation for each level
* `Fields.toObject` - named values as an object, every name becoming a text
-/

namespace Questionnaire

/-- A character inside a written text. -/
def escapeJsonChar (c : Char) : List Char :=
  if c = '"' then ['\\', '"']
  else if c = '\\' then ['\\', '\\']
  else if c = '\n' then ['\\', 'n']
  else if c = '\r' then ['\\', 'r']
  else if c = '\t' then ['\\', 't']
  else if c = '\x08' then ['\\', 'b']
  else if c = '\x0c' then ['\\', 'f']
  else if c.toNat < 0x20 then '\\' :: 'u' :: Text.hex 4 c.toNat
  else [c]

/-- A written text, between double quotes. -/
def writeText (s : String) : String :=
  String.ofList ('"' :: s.toList.flatMap escapeJsonChar ++ ['"'])

/-- A written floating point number; the three special values have names. -/
def writeFloat : Binary64 → String
  | .nan => "NaN"
  | .infinity s => minusIf s ++ "Infinity"
  | x => x.render

/-- A new line with the indentation of a level. -/
def newLine (level : Nat) : String := String.ofList ('\n' :: List.replicate (2 * level) ' ')

/-- Parts on lines of their own between brackets; without parts the brackets stand together. -/
def writeBlock (level : Nat) (opening closing : String) (parts : List String) : String :=
  match parts with
  | [] => opening ++ closing
  | _ :: _ =>
    opening ++ newLine (level + 1) ++ String.intercalate ("," ++ newLine (level + 1)) parts
      ++ newLine level ++ closing

namespace Json

mutual

/-- A value on one line. -/
def write : Json → String
  | .null => "null"
  | .bool b => if b then "true" else "false"
  | .int n => renderInt n
  | .float x => writeFloat x
  | .str s => writeText s
  | .arr xs => bracketed "[" "]" (writeItems xs)
  | .obj ms => bracketed "\x7b" "\x7d" (writeMembers ms)

/-- The items of a list, each on one line. -/
def writeItems : List Json → List String
  | [] => []
  | x :: xs => write x :: writeItems xs

/-- The members of an object, each on one line. -/
def writeMembers : List (String × Json) → List String
  | [] => []
  | m :: ms => (writeText m.1 ++ ": " ++ write m.2) :: writeMembers ms

end

mutual

/-- The greatest number of digits of the integers in a value. -/
def longestInt : Json → Nat
  | .int n => n.natAbs.repr.length
  | .arr xs => longestIntItems xs
  | .obj ms => longestIntMembers ms
  | _ => 0

/-- The greatest number of digits of the integers in the items of a list. -/
def longestIntItems : List Json → Nat
  | [] => 0
  | x :: xs => max (longestInt x) (longestIntItems xs)

/-- The greatest number of digits of the integers in the members of an object. -/
def longestIntMembers : List (String × Json) → Nat
  | [] => 0
  | m :: ms => max (longestInt m.2) (longestIntMembers ms)

end

/-- A value on one line, unless an integer in it has more digits than are written. -/
def dump (v : Json) : Except Fault String :=
  if maxDigits < v.longestInt then .error (.tooManyDigits v.longestInt) else .ok v.write

mutual

/-- A value with one part a line, inside `level` containers. -/
def writeAt (level : Nat) : Json → String
  | .null => "null"
  | .bool b => if b then "true" else "false"
  | .int n => renderInt n
  | .float x => writeFloat x
  | .str s => writeText s
  | .arr xs => writeBlock level "[" "]" (writeItemsAt (level + 1) xs)
  | .obj ms => writeBlock level "\x7b" "\x7d" (writeMembersAt (level + 1) ms)

/-- The items of a list inside `level` containers. -/
def writeItemsAt (level : Nat) : List Json → List String
  | [] => []
  | x :: xs => writeAt level x :: writeItemsAt level xs

/-- The members of an object inside `level` containers. -/
def writeMembersAt (level : Nat) : List (String × Json) → List String
  | [] => []
  | m :: ms => (writeText m.1 ++ ": " ++ writeAt level m.2) :: writeMembersAt level ms

end

/-- A value with one part a line. -/
def writeIndented (v : Json) : String := writeAt 0 v

/-- A scalar as the name of a member. -/
def keyText : Json → String
  | .str s => s
  | v => v.write

end Json

/-- Named values as an object, every name becoming a text. -/
def Fields.toObject (fields : Fields) : Object := fields.map fun e => (e.1.keyText, e.2)

end Questionnaire
