import Questionnaire.Json.Reading
import Questionnaire.Text.CaseFree

/-!
# Rows of tables

A table is answered by rows: written data, or one line of text for each row with its cells between
separators.  A word closes the table.  A row has its cells under the columns, which may be any
scalars, and columns that are equal share one place.

## Main Definitions

* `Answer.closesTable` - whether an answer closes a table
* `Answer.readRows?` - the rows of an answer
* `Answer.exampleRow` - the form of a row
-/

namespace Questionnaire.Answer

/-- The words that close a table. -/
def closingWords : List String :=
  ["סיום", "סיימתי", "אין עוד", "אין", "done", "finish", "finished", "stop"]

/-- An answer closes a table when it is one of the closing words, in any case. -/
def closesTable (answer : String) : Bool :=
  let s := Unicode.lower (Text.trim answer)
  closingWords.any fun w => Text.sameWord w.toList s.toList

/-- A character that separates cells. -/
def separatesCells (c : Char) : Bool := c == '|' || c == ',' || c == ';'

/-- The cells of a line, blank ones left out. -/
def cellsOf (line : String) : List String := Text.splitTrimmed separatesCells line

/-- The row of cells under columns. -/
def columnRow (columns : List Json) (cells : List String) : Except Fault Fields := do
  let keys ← columns.mapM Json.asKey
  pure (Assoc.ofEntries (keys.zip (cells.map Json.str)))

/-- The row of a line with enough cells: one cell for each column, all further cells as notes. -/
def rowUnder (columns : List Json) (cells : List String) : Except Fault Fields := do
  let row ← columnRow columns cells
  let further := cells.drop columns.length
  if further.isEmpty then pure row
  else pure (Assoc.put (.str "notes") (.str (String.intercalate " " further)) row)

/-- The row of a line of a table without columns: its first cell, all further cells as details. -/
def plainRow (first : String) (further : List String) : Fields :=
  if further.isEmpty then [(.str "value", .str first)]
  else [(.str "value", .str first), (.str "details", .arr (further.map Json.str))]

/-- The rows of lines.  There are none if a line has too few cells. -/
def rowsOfLines (columns : List Json) : List String → Except Fault (Option (List Fields))
  | [] => .ok (some [])
  | line :: rest =>
    match cellsOf line with
    | [] => rowsOfLines columns rest
    | first :: further =>
      if columns.isEmpty then do
        let rows ← rowsOfLines columns rest
        pure (rows.map (plainRow first further :: ·))
      else if (first :: further).length < columns.length then .ok none
      else do
        let row ← rowUnder columns (first :: further)
        let rows ← rowsOfLines columns rest
        pure (rows.map (row :: ·))

/-- An item of written data as a row. -/
def dataRow : Json → Fields
  | .obj ms => Fields.ofObject ms
  | v => [(.str "value", v)]

/-- The rows, unless there are none. -/
def nonempty : List Fields → Option (List Fields)
  | [] => none
  | rows => some rows

/-- The rows of an answer, if it has any. -/
def readRows? (answer : String) (columns : List Json) : Except Fault (Option (List Fields)) :=
  let s := Text.trim answer
  if s = "" then .ok none
  else
    match Json.read? s with
    | some (.arr items) => .ok (nonempty (items.map dataRow))
    | some (.obj ms) => .ok (some [Fields.ofObject ms])
    | _ => do
      let rows ← rowsOfLines columns (Text.lines s)
      pure (rows.bind nonempty)

/-- The texts of values that should all be texts. -/
def textsOf (values : List Json) : Except Fault (List String) :=
  values.mapM fun v =>
    match v with
    | .str s => .ok s
    | w => .error (.notDefined "joining" w.kindName)

/-- The form of a row, as it is shown to the user. -/
def exampleRow (columns : List Json) : Except Fault String :=
  if columns.isEmpty then .ok "item, details"
  else do
    let names ← textsOf columns
    pure (String.intercalate ", " names)

end Questionnaire.Answer
