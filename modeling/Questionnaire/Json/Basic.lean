import Questionnaire.Assoc
import Questionnaire.Number.Binary64

/-!
# Data values

The values that a catalog, a stored field and a form document are made of.  Integers are exact and
of any size, floating point numbers are a kind of their own, and the members of an object keep
their order.

## Main Definitions

* `Json` - a data value
* `Json.isFilled` - whether a value counts as given where a default would step in otherwise
* `Json.equal` - equality, under which numbers of different kinds are equal by value
* `Object` - the members of an object
* `Fields` - named values whose names may be any scalar

## Design Notes

Equality does not look at the order of the members of an object.  Inside a container not-a-number
equals itself; on its own it equals nothing.  `==` on values is the equality inside containers,
which is the one that looking up a key uses.
-/

namespace Questionnaire

/-- A data value. -/
inductive Json where
  /-- The absent value. -/
  | null
  /-- A truth value. -/
  | bool (value : Bool)
  /-- An integer of any size. -/
  | int (value : Int)
  /-- A floating point number. -/
  | float (value : Binary64)
  /-- A text. -/
  | str (value : String)
  /-- A list of values. -/
  | arr (items : List Json)
  /-- Values under distinct names, in the order of their first writes. -/
  | obj (members : List (String × Json))
  deriving Inhabited

/-- The members of an object. -/
abbrev Object := Assoc String Json

namespace Json

/-- The name of the kind of a value, as messages show it. -/
def kindName : Json → String
  | .null => "NoneType"
  | .bool _ => "bool"
  | .int _ => "int"
  | .float _ => "float"
  | .str _ => "str"
  | .arr _ => "list"
  | .obj _ => "dict"

/-- A filled value is not null, not false, not zero and not empty. -/
def isFilled : Json → Bool
  | .null => false
  | .bool b => b
  | .int n => n != 0
  | .float x => !x.isZero
  | .str s => s != ""
  | .arr xs => !xs.isEmpty
  | .obj ms => !ms.isEmpty

/-- The value itself when it is filled, and `default` otherwise. -/
def filledOr (v default : Json) : Json := if v.isFilled then v else default

/-- The numeric value of a number or truth value. -/
def quantity? : Json → Option Quantity
  | .bool b => some (.ofInt (if b then 1 else 0))
  | .int n => some (.ofInt n)
  | .float x => some x.quantity
  | _ => none

/-- Two numbers are equal by value, or both not-a-number. -/
def sameNumber (v w : Json) : Bool :=
  match v.quantity?, w.quantity? with
  | some .nan, some .nan => true
  | some x, some y => x.eq y
  | _, _ => false

mutual

/-- Equality of values inside containers. -/
def alike : Json → Json → Bool
  | .null, w => match w with
    | .null => true
    | _ => false
  | .str s, w => match w with
    | .str t => s == t
    | _ => false
  | .arr xs, w => match w with
    | .arr ys => alikeItems xs ys
    | _ => false
  | .obj ms, w => match w with
    | .obj ns => ms.length == ns.length && alikeMembers ms ns
    | _ => false
  | .bool b, w => sameNumber (.bool b) w
  | .int n, w => sameNumber (.int n) w
  | .float x, w => sameNumber (.float x) w

/-- Equality of lists, item by item. -/
def alikeItems : List Json → List Json → Bool
  | [], ys => ys.isEmpty
  | x :: xs, ys => match ys with
    | [] => false
    | y :: ys => alike x y && alikeItems xs ys

/-- Every member of the first object has an equal member in the second. -/
def alikeMembers : List (String × Json) → List (String × Json) → Bool
  | [], _ => true
  | m :: ms, ns =>
    (match Assoc.valueAt? m.1 ns with
      | some w => alike m.2 w
      | none => false) && alikeMembers ms ns

end

instance : BEq Json := ⟨alike⟩

/-- Equality of two values that stand on their own. -/
def equal (v w : Json) : Bool :=
  match v.quantity?, w.quantity? with
  | some x, some y => x.eq y
  | _, _ => v == w

/-- Scalars may serve as keys, arrays and objects may not. -/
def isKey : Json → Bool
  | .arr _ => false
  | .obj _ => false
  | _ => true

/-- The text of a text value. -/
def text? : Json → Option String
  | .str s => some s
  | _ => none

/-- The member of an object under a name. -/
def member? (name : String) : Json → Option Json
  | .obj ms => Assoc.valueAt? name ms
  | _ => none

@[simp] theorem str_beq (s t : String) : (Json.str s == Json.str t) = (s == t) := rfl

end Json

/-- Values under names that may be any scalar, in the order of their first writes. -/
abbrev Fields := Assoc Json Json

/-- The members of an object as named values. -/
def Fields.ofObject (o : Object) : Fields := o.map fun m => (.str m.1, m.2)

end Questionnaire
