import Questionnaire.Message.Layout

/-!
# Patterns of messages

A pattern is a text with placeholders in braces; a doubled brace stands for itself.  A placeholder
names a value and may go on with parts of it, a conversion and a layout, which may hold
placeholders itself.  A name without a value stands for its own placeholder.

## Main Definitions

* `Pattern.render` - a pattern with its placeholders filled

## Design Notes

A pattern is read from left to right and every placeholder is filled as it is read, so of two faults
the first one in the text is reported.
-/

namespace Questionnaire.Pattern

/-- What a placeholder denotes: a value, or the kind of values of a name. -/
inductive Referent where
  /-- A value. -/
  | value (v : Json)
  /-- A kind. -/
  | kind (name : String)

namespace Referent

/-- The text of what is denoted. -/
def display : Referent → String
  | .value v => v.display
  | .kind name => "<class '" ++ name ++ "'>"

/-- The literal notation of what is denoted. -/
def literal : Referent → String
  | .value v => v.literal
  | .kind name => "<class '" ++ name ++ "'>"

/-- The name of the kind of what is denoted. -/
def kindName : Referent → String
  | .value v => v.kindName
  | .kind _ => "type"

/-- The named parts of an integer. -/
def integerPart? (n : Int) : String → Option Json
  | "real" => some (.int n)
  | "numerator" => some (.int n)
  | "imag" => some (.int 0)
  | "denominator" => some (.int 1)
  | _ => none

/-- The named parts of a value. -/
def valuePart? (v : Json) (name : String) : Option Json :=
  match v with
  | .int n => integerPart? n name
  | .bool b => integerPart? (if b then 1 else 0) name
  | .float x =>
    match name with
    | "real" => some (.float x)
    | "imag" => some (.float (.zero false))
    | _ => none
  | _ => none

/-- The named parts of a kind. -/
def kindPart? (kind : String) : String → Option Json
  | "__name__" => some (.str kind)
  | "__qualname__" => some (.str kind)
  | "__module__" => some (.str "builtins")
  | _ => none

/-- The part of what is denoted under a name. -/
def part (d : Referent) (name : String) : Except Fault Referent :=
  if name = "__class__" then .ok (.kind d.kindName)
  else
    match d with
    | .value v =>
      match valuePart? v name with
      | some w => .ok (.value w)
      | none => .error (.noPart v.kindName name)
    | .kind k =>
      match kindPart? k name with
      | some w => .ok (.value w)
      | none => .error (.noPart "type" name)

/-- The item of what is denoted at a position. -/
def itemAt (d : Referent) (n : Nat) : Except Fault Referent :=
  match d with
  | .value (.str s) =>
    match s.toList[n]? with
    | some c => .ok (.value (.str (String.ofList [c])))
    | none => .error .noItem
  | .value (.arr xs) =>
    match xs[n]? with
    | some x => .ok (.value x)
    | none => .error .noItem
  | .value (.obj _) => .error (.missingEntry (toString n))
  | _ => .error (.notDefined "item" d.kindName)

/-- The item of what is denoted under a key. -/
def itemUnder (d : Referent) (key : String) : Except Fault Referent :=
  match d with
  | .value (.obj ms) =>
    match Assoc.valueAt? key ms with
    | some x => .ok (.value x)
    | none => .error (.missingEntry key)
  | _ => .error (.notDefined "item" d.kindName)

/-- What is denoted under the layout that `cs` spells. -/
def layOut (cs : List Char) : Referent → Except Fault String
  | .value v => Layout.value cs v
  | .kind name =>
    if cs.isEmpty then .ok (Referent.kind name).display else .error (.notDefined "layout" "type")

end Referent

/-- A placeholder as it is written. -/
structure Placeholder where
  /-- The name and the parts of it. -/
  path : List Char
  /-- The letter of the conversion. -/
  conversion : Option Char
  /-- The layout. -/
  layout : List Char

/-- The path of a placeholder, the character that ends it, and what follows.  Brackets hide the
characters inside them. -/
def readPath : Bool → List Char → Except Fault (List Char × Char × List Char)
  | _, [] => .error (.badPattern "expected '\x7d' before end of string")
  | true, c :: rest => do
    let (path, ending, rest) ← readPath (c != ']') rest
    pure (c :: path, ending, rest)
  | false, c :: rest =>
    if c = '\x7b' then .error (.badPattern "unexpected '\x7b' in field name")
    else if c = '\x7d' ∨ c = ':' ∨ c = '!' then .ok ([], c, rest)
    else do
      let (path, ending, rest) ← readPath (c == '[') rest
      pure (c :: path, ending, rest)

/-- The layout of a placeholder up to its closing brace, `depth` braces being open inside it, and
what follows. -/
def readLayout : Nat → List Char → Except Fault (List Char × List Char)
  | _, [] => .error (.badPattern "unmatched '\x7b' in format spec")
  | depth, c :: rest =>
    if c = '\x7d' ∧ depth = 0 then .ok ([], rest)
    else do
      let depth := if c = '\x7b' then depth + 1 else if c = '\x7d' then depth - 1 else depth
      let (layout, rest) ← readLayout depth rest
      pure (c :: layout, rest)

/-- A placeholder after its opening brace, and what follows it. -/
def readPlaceholder (cs : List Char) : Except Fault (Placeholder × List Char) := do
  let (path, ending, rest) ← readPath false cs
  if ending = '!' then
    match rest with
    | [] => .error (.badPattern "end of string while looking for conversion specifier")
    | [_] => .error (.badPattern "unmatched '\x7b' in format spec")
    | letter :: next :: rest =>
      if next = '\x7d' then pure (⟨path, some letter, []⟩, rest)
      else if next = ':' then do
        let (layout, rest) ← readLayout 0 rest
        pure (⟨path, some letter, layout⟩, rest)
      else .error (.badPattern "expected ':' after conversion specifier")
  else if ending = ':' then do
    let (layout, rest) ← readLayout 0 rest
    pure (⟨path, none, layout⟩, rest)
  else pure (⟨path, none, []⟩, rest)

/-- A part of a name is read until the next part starts. -/
def endsPart (c : Char) : Bool := c == '.' || c == '['

/-- The position that a row of digits gives, none for another text.  A text may not start with a
number that is too large for a position. -/
def asPosition (cs : List Char) : Except Fault (Option Nat) :=
  if maxCount < digitsValue (cs.takeWhile Unicode.isDigit) then
    .error (.badPattern "Too many decimal digits in format string")
  else if !cs.isEmpty && cs.all Unicode.isDigit then .ok (some (digitsValue cs))
  else .ok none

/-- The failure of a part without a name. -/
def emptyPart : Fault := .badPattern "Empty attribute in format string"

/-- The parts of what is denoted that a path names, one after the other; `fuel` bounds the length of
the path. -/
def followParts : Nat → List Char → Referent → Except Fault Referent
  | 0, _, d => .ok d
  | _ + 1, [], d => .ok d
  | fuel + 1, c :: rest, d =>
    if c = '.' then
      let name := rest.takeWhile (!endsPart ·)
      if name.isEmpty then .error emptyPart
      else do
        let next ← d.part (String.ofList name)
        followParts fuel (rest.dropWhile (!endsPart ·)) next
    else if c = '[' then
      let name := rest.takeWhile (· != ']')
      match rest.dropWhile (· != ']') with
      | [] => .error (.badPattern "Missing ']' in format string")
      | _ :: after =>
        if name.isEmpty then .error emptyPart
        else do
          let next ←
            match ← asPosition name with
            | some n => d.itemAt n
            | none => d.itemUnder (String.ofList name)
          followParts fuel after next
    else .error (.badPattern "Only '.' or '[' may follow ']' in format field specifier")

/-- The value of a name, or its own placeholder without one. -/
def named (values : Object) (name : String) : Json :=
  (Assoc.valueAt? name values).getD (.str ("\x7b" ++ name ++ "\x7d"))

/-- What a path denotes.  A path that starts with a position, or with nothing, is refused. -/
def referent (values : Object) (path : List Char) : Except Fault Referent := do
  let name := path.takeWhile (!endsPart ·)
  let position ← asPosition name
  if name.isEmpty || position.isSome then
    .error (.badPattern "Format string contains positional fields")
  else
    followParts (path.length + 1) (path.dropWhile (!endsPart ·))
      (.value (named values (String.ofList name)))

/-- What is denoted after the conversion of a letter. -/
def converted (d : Referent) : Option Char → Except Fault Referent
  | none => .ok d
  | some 's' => .ok (.value (.str d.display))
  | some 'r' => .ok (.value (.str d.literal))
  | some 'a' => .ok (.value (.str (Text.escapeNonAscii d.literal)))
  | some _ => .error (.badPattern "Unknown conversion specifier")

/-- A pattern with its placeholders filled, where `nested` fills the layouts that hold placeholders
and `fuel` bounds the length of the text. -/
def fillFrom (values : Object) (nested : List Char → Except Fault (List Char)) :
    Nat → List Char → Except Fault (List Char)
  | 0, _ => .ok []
  | _ + 1, [] => .ok []
  | fuel + 1, c :: rest =>
    if c = '\x7d' then
      match rest with
      | '\x7d' :: rest => do
        let filled ← fillFrom values nested fuel rest
        pure ('\x7d' :: filled)
      | _ => .error (.badPattern "Single '\x7d' encountered in format string")
    else if c = '\x7b' then
      match rest with
      | [] => .error (.badPattern "Single '\x7b' encountered in format string")
      | '\x7b' :: rest => do
        let filled ← fillFrom values nested fuel rest
        pure ('\x7b' :: filled)
      | _ => do
        let (p, rest) ← readPlaceholder rest
        let d ← referent values p.path
        let d ← converted d p.conversion
        let layout ← if p.layout.contains '\x7b' then nested p.layout else pure p.layout
        let shown ← d.layOut layout
        let filled ← fillFrom values nested fuel rest
        pure (shown.toList ++ filled)
    else do
      let filled ← fillFrom values nested fuel rest
      pure (c :: filled)

/-- A pattern with its placeholders filled, layouts being filled `depth` levels deep. -/
def fill (values : Object) : Nat → List Char → Except Fault (List Char)
  | 0, _ => .error (.badPattern "Max string recursion exceeded")
  | depth + 1, cs => fillFrom values (fill values depth) (cs.length + 1) cs

/-- The number of levels of placeholders: a layout may hold some, and theirs may not. -/
def levels : Nat := 2

/-- A pattern with its placeholders filled. -/
def render (pattern : String) (values : Object) : Except Fault String :=
  String.ofList <$> fill values levels pattern.toList

end Questionnaire.Pattern
