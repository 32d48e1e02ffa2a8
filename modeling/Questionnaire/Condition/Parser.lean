import Questionnaire.Condition.Expr

/-!
# From tokens to trees

The binary operators bind in three levels: disjunction loosest, then conjunction, then comparisons
and membership.  All of them associate to the left.  Negation binds more loosely than a comparison
and more tightly than a conjunction.

## Main Definitions

* `Condition.parse` - the tree of a text, or why it has none

## Design Notes

`term` reads an operand and then every operator that binds more tightly than a given strength.
Each call takes at least one token or hands all of them to a call that does, so twice the number of
tokens bounds the depth.
-/

namespace Questionnaire.Condition

/-- How tightly operators bind. -/
inductive Strength where
  /-- Outside all operators. -/
  | outermost
  /-- The strength of a disjunction. -/
  | disj
  /-- The strength of a conjunction. -/
  | conj
  /-- The strength of a negation. -/
  | neg
  /-- The strength of comparisons and membership. -/
  | compare
  deriving DecidableEq, Repr

/-- The rank of a strength. -/
def Strength.rank : Strength → Nat
  | .outermost => 0
  | .disj => 10
  | .conj => 20
  | .neg => 30
  | .compare => 40

/-- A binary operator. -/
inductive Binary where
  /-- Disjunction. -/
  | disj
  /-- Conjunction. -/
  | conj
  /-- Membership. -/
  | includes
  /-- A comparison. -/
  | compare (op : Comparison)
  deriving DecidableEq, Repr

namespace Binary

/-- The binary operator that a token stands for. -/
def ofLexeme? : Lexeme → Option Binary
  | .disj _ => some .disj
  | .conj _ => some .conj
  | .includes _ => some .includes
  | .comparison op => some (.compare op)
  | _ => none

/-- How tightly an operator binds. -/
def strength : Binary → Strength
  | .disj => .disj
  | .conj => .conj
  | .includes => .compare
  | .compare _ => .compare

/-- The tree of an operator with its two operands. -/
def apply : Binary → Expr → Expr → Expr
  | .disj, l, r => .disj l r
  | .conj, l, r => .conj l r
  | .includes, l, r => .includes l r
  | .compare op, l, r => .compare op l r

end Binary

/-- The operator at the start of the tokens, if it binds more tightly than `limit`. -/
def operatorAbove? (limit : Strength) : List Token → Option (Binary × List Token)
  | [] => none
  | t :: rest =>
    match Binary.ofLexeme? t.lexeme with
    | some op => if limit.rank < op.strength.rank then some (op, rest) else none
    | none => none

/-- The position of the first token, or the end of the text. -/
def startOf (expression : String) : List Token → Nat
  | [] => expression.toList.length
  | t :: _ => t.position

/-- The value of the first token, absent at the end of the text. -/
def valueOf : List Token → Json
  | [] => .null
  | t :: _ => t.lexeme.value

/-- The failure of finding a token other than one of `kind` in front. -/
def missing (expression kind : String) (tokens : List Token) : SyntaxError :=
  ⟨expression, .expected kind (valueOf tokens), startOf expression tokens⟩

/-- What follows a closing bracket. -/
def afterClosing (expression : String) : List Token → Except SyntaxError (List Token)
  | ⟨.closing, _⟩ :: rest => .ok rest
  | tokens => .error (missing expression Lexeme.closing.kindName tokens)

/-- The negative of a number. -/
def negative : Json → Json
  | .int n => .int (-n)
  | .float x => .float x.neg
  | v => v

/-- The tree of a number after a minus. -/
def afterMinus (expression : String) : List Token → Except SyntaxError (Expr × List Token)
  | ⟨.number v, _⟩ :: rest => .ok (.literal (negative v), rest)
  | tokens => .error (missing expression (Lexeme.number .null).kindName tokens)

/-- The name before an opening bracket and what follows the bracket. -/
def callHead? : List Token → Option (Token × String × List Token)
  | ⟨.name w, p⟩ :: ⟨.opening, _⟩ :: rest => some (⟨.name w, p⟩, w, rest)
  | ⟨.includes w, p⟩ :: ⟨.opening, _⟩ :: rest => some (⟨.includes w, p⟩, w, rest)
  | _ => none

/-- The tree of a token that is a value by itself. -/
def leaf? : Lexeme → Option Expr
  | .number v => some (.literal v)
  | .quoted s => some (.literal (.str s))
  | .yes _ => some (.literal (.bool true))
  | .no _ => some (.literal (.bool false))
  | .absent _ => some (.literal .null)
  | .name w => some (.field w)
  | _ => none

/-- The failure of finding no operand. -/
def noOperand (expression : String) : List Token → SyntaxError
  | [] => ⟨expression, .unexpectedEnd, expression.toList.length⟩
  | t :: _ => ⟨expression, .unexpectedToken t.lexeme.value, t.position⟩

/-- The tree of a call, its name and arguments given. -/
def callTree (expression : String) (t : Token) (written : String) (f : Function)
    (args : List Expr) : Except SyntaxError Expr :=
  match f.call? args with
  | some tree => .ok tree
  | none => .error ⟨expression, .wrongArity written f.arity args.length, t.position⟩

mutual

/-- A term whose operators bind more tightly than `limit`. -/
def term (expression : String) : Nat → Strength → List Token →
    Except SyntaxError (Expr × List Token)
  | 0, _, tokens => .error (noOperand expression tokens)
  | fuel + 1, limit, tokens => do
    let (left, rest) ← operand expression fuel tokens
    extend expression fuel limit left rest

/-- The tree `left` extended by the operators that bind more tightly than `limit`. -/
def extend (expression : String) : Nat → Strength → Expr → List Token →
    Except SyntaxError (Expr × List Token)
  | 0, _, left, tokens => .ok (left, tokens)
  | fuel + 1, limit, left, tokens =>
    match operatorAbove? limit tokens with
    | none => .ok (left, tokens)
    | some (op, rest) => do
      let (right, rest) ← term expression fuel op.strength rest
      extend expression fuel limit (op.apply left right) rest

/-- An operand. -/
def operand (expression : String) : Nat → List Token → Except SyntaxError (Expr × List Token)
  | 0, tokens => .error (noOperand expression tokens)
  | fuel + 1, tokens =>
    match callHead? tokens with
    | some (t, written, rest) =>
      match Function.ofName? written with
      | none => .error ⟨expression, .unknownFunction written, t.position⟩
      | some f => do
        let (args, rest) ← arguments expression fuel rest
        let rest ← afterClosing expression rest
        let tree ← callTree expression t written f args
        pure (tree, rest)
    | none =>
      match tokens with
      | [] => .error (noOperand expression [])
      | t :: rest =>
        match t.lexeme with
        | .opening => do
          let (tree, rest) ← term expression fuel .outermost rest
          let rest ← afterClosing expression rest
          pure (tree, rest)
        | .neg _ => do
          let (tree, rest) ← term expression fuel .neg rest
          pure (.not tree, rest)
        | .minus => afterMinus expression rest
        | l =>
          match leaf? l with
          | some tree => .ok (tree, rest)
          | none => .error (noOperand expression (t :: rest))

/-- The arguments of a call, up to its closing bracket. -/
def arguments (expression : String) : Nat → List Token →
    Except SyntaxError (List Expr × List Token)
  | 0, tokens => .ok ([], tokens)
  | fuel + 1, tokens =>
    match tokens with
    | ⟨.closing, _⟩ :: _ => .ok ([], tokens)
    | _ => do
      let (first, rest) ← term expression fuel .outermost tokens
      moreArguments expression fuel first rest

/-- The arguments of a call from `first` on. -/
def moreArguments (expression : String) : Nat → Expr → List Token →
    Except SyntaxError (List Expr × List Token)
  | 0, first, tokens => .ok ([first], tokens)
  | fuel + 1, first, tokens =>
    match tokens with
    | ⟨.comma, _⟩ :: rest => do
      let (next, rest) ← term expression fuel .outermost rest
      let (args, rest) ← moreArguments expression fuel next rest
      pure (first :: args, rest)
    | _ => .ok ([first], tokens)

end

/-- The fuel that suffices for a list of tokens. -/
def enoughFuel (tokens : List Token) : Nat := 2 * tokens.length + 4

/-- The tree of the tokens of a text. -/
def treeOf (expression : String) (tokens : List Token) : Except SyntaxError Expr :=
  match term expression (enoughFuel tokens) .outermost tokens with
  | .error e => .error e
  | .ok (tree, []) => .ok tree
  | .ok (_, t :: _) => .error ⟨expression, .unexpectedToken t.lexeme.value, t.position⟩

/-- The tree of a text, or why it has none. -/
def parse (expression : String) : Except SyntaxError Expr :=
  match tokens expression with
  | .error e => .error e
  | .ok ts => treeOf expression ts

end Questionnaire.Condition
