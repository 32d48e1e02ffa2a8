import Questionnaire.Fault
import Questionnaire.Number.Reading

/-!
# Paths into documents

A path names a place in a nested document: keys separated by points, and positions in brackets.
Reading is total; writing creates what is missing on the way and replaces what does not fit.

## Main Definitions

* `Path.Segment` - a key or a position
* `Path.parse` - the segments of a written path
* `Path.keys` - the segments of a path of keys only
* `Path.get` - the value at a path, absent when any segment does not fit
* `Path.set` - the document with a value written at a path
* `Path.getAt`, `Path.setAt` - the same for a path that is given as a value

## Design Notes

Whatever is neither a key nor a position in brackets is skipped, so every text is a path unless a
position has too many digits.  A value that is not filled is the empty path, and any other value
than a text is no path.
-/

namespace Questionnaire

namespace Path

/-- One step into a document. -/
inductive Segment where
  /-- Into an object, by name. -/
  | key (name : String)
  /-- Into a list, by position. -/
  | index (position : Nat)
  deriving DecidableEq, Repr

/-- A character that cannot stand in a key. -/
def isDelimiter (c : Char) : Bool := c == '[' || c == '.' || c == ']'

/-- The digits of the position in brackets at the start of a text after its opening bracket, and
what follows the closing bracket. -/
def position? (cs : List Char) : Option (List Char × List Char) :=
  let digits := cs.takeWhile Unicode.isDigit
  match cs.dropWhile Unicode.isDigit with
  | ']' :: rest => if digits.isEmpty then none else some (digits, rest)
  | _ => none

/-- The position that digits spell. -/
def positionOf (digits : List Char) : Except Fault Nat :=
  if maxDigits < digits.length then .error (.tooManyDigits digits.length)
  else .ok (digitsValue digits)

/-- The key that a run of characters names: the run without the blanks at its ends. -/
def keySegment (cs : List Char) : List Segment :=
  let name := Text.trimChars cs
  if name.isEmpty then [] else [.key (String.ofList name)]

/-- The segments of a path; `fuel` bounds its length. -/
def parseFrom : Nat → List Char → Except Fault (List Segment)
  | 0, _ => .ok []
  | _ + 1, [] => .ok []
  | fuel + 1, c :: rest =>
    if isDelimiter c then
      match if c = '[' then position? rest else none with
      | some (digits, rest') => do
        let n ← positionOf digits
        let segments ← parseFrom fuel rest'
        pure (.index n :: segments)
      | none => parseFrom fuel rest
    else do
      let segments ← parseFrom fuel ((c :: rest).dropWhile (!isDelimiter ·))
      pure (keySegment ((c :: rest).takeWhile (!isDelimiter ·)) ++ segments)

/-- The segments of a written path. -/
def parse (path : String) : Except Fault (List Segment) :=
  parseFrom (path.toList.length + 1) path.toList

/-- The segments of a path of keys only, which are separated by points. -/
def keys (path : String) : List Segment :=
  (Text.splitWhere (· == '.') path.toList).flatMap keySegment

/-- The segments of a path that is given as a value. -/
def segmentsOf (path : Json) : Except Fault (List Segment) :=
  match path with
  | .str s => parse s
  | v => if v.isFilled then .error (.notText v.kindName) else .ok []

/-- The value that one segment leads to. -/
def step (v : Json) : Segment → Json
  | .key name => (v.member? name).getD .null
  | .index n =>
    match v with
    | .arr xs => xs[n]?.getD .null
    | _ => .null

/-- The value that segments lead to, absent as soon as one does not fit. -/
def follow (v : Json) : List Segment → Json
  | [] => v
  | s :: rest => follow (step v s) rest

/-- The value at a path. -/
def get (v : Json) (path : String) : Except Fault Json := do
  let segments ← parse path
  pure (follow v segments)

/-- The value at a path that is given as a value. -/
def getAt (v path : Json) : Except Fault Json := do
  let segments ← segmentsOf path
  pure (follow v segments)

/-- A list with at least `n` items, absent values filling it up. -/
def padTo (n : Nat) (xs : List Json) : List Json := xs ++ List.replicate (n - xs.length) .null

/-- The members of an object, none of any other value. -/
def membersOf : Json → List (String × Json)
  | .obj ms => ms
  | _ => []

/-- The items of a list, none of any other value. -/
def itemsOf : Json → List Json
  | .arr xs => xs
  | _ => []

/-- The value with `new` written at the end of the segments.  A container that is missing or of the
wrong kind is created. -/
def write (new : Json) : List Segment → Json → Json
  | [], _ => new
  | .key name :: rest, v =>
    let ms := membersOf v
    .obj (Assoc.put name (write new rest ((Assoc.valueAt? name ms).getD .null)) ms)
  | .index n :: rest, v =>
    let xs := padTo (n + 1) (itemsOf v)
    .arr (xs.set n (write new rest (xs[n]?.getD .null)))

/-- A document and the first segment of a path fit: a key goes into an object, a position into a
list. -/
def fits : Segment → Json → Bool
  | .key _, .obj _ => true
  | .index _, .arr _ => true
  | _, _ => false

/-- The name of the container that a segment goes into. -/
def containerName : Segment → String
  | .key _ => "dict"
  | .index _ => "list"

/-- The document with a value written at a path that is given as a value. -/
def setAt (document path new : Json) : Except Fault Json := do
  match ← segmentsOf path with
  | [] => .error (.emptyPath path)
  | s :: rest =>
    if fits s document then .ok (write new (s :: rest) document)
    else .error (.unfitRoot path (containerName s) document.kindName)

/-- The document with a value written at a path. -/
def set (document : Json) (path : String) (new : Json) : Except Fault Json :=
  setAt document (.str path) new

@[simp] theorem segmentsOf_str (path : String) : segmentsOf (.str path) = parse path := rfl

theorem getAt_str (v : Json) (path : String) : getAt v (.str path) = get v path := rfl

end Path

end Questionnaire
