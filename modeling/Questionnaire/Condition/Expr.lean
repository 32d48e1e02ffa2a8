import Questionnaire.Condition.Token

/-!
# Conditions as trees

## Main Definitions

* `Condition.Expr` - the tree of a condition
* `Condition.Function` - the functions that a condition may call
-/

namespace Questionnaire.Condition

/-- The tree of a condition. -/
inductive Expr where
  /-- A value that stands for itself. -/
  | literal (value : Json)
  /-- The value of a field. -/
  | field (name : String)
  /-- The negation of a condition. -/
  | not (operand : Expr)
  /-- Both conditions hold. -/
  | conj (left right : Expr)
  /-- One of the conditions holds. -/
  | disj (left right : Expr)
  /-- A comparison of two values. -/
  | compare (op : Comparison) (left right : Expr)
  /-- A value lies in a list or a text. -/
  | includes (container needle : Expr)
  /-- A value is present, written as a call. -/
  | presentCall (operand : Expr)
  /-- A value lies in a list or a text, written as a call. -/
  | includesCall (container needle : Expr)

/-- The functions that a condition may call. -/
inductive Function where
  /-- Whether a value is present. -/
  | present
  /-- Whether a value lies in a list or a text. -/
  | includes
  deriving DecidableEq, Repr

namespace Function

/-- The function of a name, in any case, with or without two leading underscores. -/
def ofName? (written : String) : Option Function :=
  match Unicode.lower written with
  | "present" => some .present
  | "__present" => some .present
  | "includes" => some .includes
  | "__includes" => some .includes
  | _ => none

/-- The number of arguments that a function takes. -/
def arity : Function → Nat
  | .present => 1
  | .includes => 2

/-- The call of a function, if the number of arguments is right. -/
def call? : Function → List Expr → Option Expr
  | .present, [x] => some (.presentCall x)
  | .includes, [x, y] => some (.includesCall x y)
  | _, _ => none

theorem call?_isSome_iff (f : Function) (args : List Expr) :
    (f.call? args).isSome = true ↔ args.length = f.arity := by
  cases f <;> rcases args with _ | ⟨x, _ | ⟨y, _ | ⟨z, rest⟩⟩⟩ <;> simp [call?, arity]

end Function

end Questionnaire.Condition
