import Questionnaire.Fault

/-!
# Named values from data

Named values are written as an object, or as a list of pairs.

## Main Definitions

* `Json.entries` - the named values that a value holds
* `Fields.update` - named values completed by those that a value holds
-/

namespace Questionnaire

namespace Json

/-- A pair of a key and a value. -/
def pairAt (index : Nat) (v : Json) : Except Fault (Json × Json) :=
  match v with
  | .arr [k, w] => do
    let key ← k.asKey
    pure (key, w)
  | .arr xs => .error (.notPair index xs.length)
  | .obj [a, b] => .ok (.str a.1, .str b.1)
  | .obj ms => .error (.notPair index ms.length)
  | .str s =>
    match s.toList with
    | [a, b] => .ok (.str (String.ofList [a]), .str (String.ofList [b]))
    | cs => .error (.notPair index cs.length)
  | _ => .error (.notSequence index)

/-- The pairs of a list, counted from `index`. -/
def pairsFrom (index : Nat) : List Json → Except Fault (List (Json × Json))
  | [] => .ok []
  | v :: rest => do
    let p ← pairAt index v
    let ps ← pairsFrom (index + 1) rest
    pure (p :: ps)

/-- The named values that a value holds: the members of an object, or the pairs of a list.  The
characters of a text are no pairs. -/
def entries (v : Json) : Except Fault (List (Json × Json)) :=
  match v with
  | .obj ms => .ok (Fields.ofObject ms)
  | .arr xs => pairsFrom 0 xs
  | .str s => if s = "" then .ok [] else .error (.notPair 0 1)
  | w => .error (.notCollection w.kindName)

/-- The items that walking over a value gives: the items of a list, the names of an object, the
characters of a text. -/
def itemsOver (v : Json) : Except Fault (List Json) :=
  match v with
  | .arr xs => .ok xs
  | .obj ms => .ok (ms.map fun m => .str m.1)
  | .str s => .ok (s.toList.map fun c => .str (String.ofList [c]))
  | w => .error (.notCollection w.kindName)

/-- The member of an object under a name; any other value than an object has none. -/
def part (v : Json) (name : String) : Except Fault (Option Json) :=
  match v with
  | .obj ms => .ok (Assoc.valueAt? name ms)
  | w => .error (.noPart w.kindName "get")

/-- The member of an object under a name, absent if there is none. -/
def partOrNull (v : Json) (name : String) : Except Fault Json := do
  let w ← v.part name
  pure (w.getD .null)

/-- The members of an object as named values; a value that is not filled has none. -/
def asFields (v : Json) : Except Fault Fields :=
  match v with
  | .obj ms => .ok (Fields.ofObject ms)
  | w => if w.isFilled then .error (.noPart w.kindName "items") else .ok []

end Json

/-- Named values completed by those that a value holds, which replace earlier ones. -/
def Fields.update (fields : Fields) (v : Json) : Except Fault Fields := do
  let es ← v.entries
  pure (Assoc.overlay fields es)

end Questionnaire
