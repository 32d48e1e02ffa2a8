import Questionnaire.Json.Reading
import Questionnaire.Unicode.Word

/-!
# Tokens of conditions

A condition is a text that is split into tokens: names, literals, operators and punctuation.  Words
with a meaning of their own are recognised in any case.

## Main Definitions

* `Condition.Token` - a token with its position
* `Condition.SyntaxError` - why a text is no condition
* `Condition.tokens` - the tokens of a text

## Design Notes

At each position the longest lexeme of the first kind that starts there is taken: blanks, quoted
text, numbers, operators, punctuation, names.
-/

namespace Questionnaire.Condition

/-- A comparison, in each of its spellings. -/
inductive Comparison where
  /-- `=` -/
  | equal
  /-- `==` -/
  | doubleEqual
  /-- `===` -/
  | tripleEqual
  /-- `!=` -/
  | unequal
  /-- `!==` -/
  | strictUnequal
  /-- `>` -/
  | greater
  /-- `>=` -/
  | greaterEqual
  /-- `<` -/
  | less
  /-- `<=` -/
  | lessEqual
  deriving DecidableEq, Repr

/-- The spelling of a comparison. -/
def Comparison.spelling : Comparison → String
  | .equal => "="
  | .doubleEqual => "=="
  | .tripleEqual => "==="
  | .unequal => "!="
  | .strictUnequal => "!=="
  | .greater => ">"
  | .greaterEqual => ">="
  | .less => "<"
  | .lessEqual => "<="

/-- What a token is.  Words and signs with a meaning keep the text they were written with. -/
inductive Lexeme where
  /-- A quoted text, its escapes resolved. -/
  | quoted (value : String)
  /-- A number, an integer when it is one. -/
  | number (value : Json)
  /-- A comparison. -/
  | comparison (op : Comparison)
  /-- The minus before a number. -/
  | minus
  /-- Conjunction. -/
  | conj (written : String)
  /-- Disjunction. -/
  | disj (written : String)
  /-- Negation. -/
  | neg (written : String)
  /-- Membership. -/
  | includes (written : String)
  /-- The truth value true. -/
  | yes (written : String)
  /-- The truth value false. -/
  | no (written : String)
  /-- The absent value. -/
  | absent (written : String)
  /-- An opening bracket. -/
  | opening
  /-- A closing bracket. -/
  | closing
  /-- A comma. -/
  | comma
  /-- A name. -/
  | name (written : String)

namespace Lexeme

/-- The name of the kind of a token. -/
def kindName : Lexeme → String
  | .quoted _ => "STRING"
  | .number _ => "NUMBER"
  | .comparison _ => "OP"
  | .minus => "OP"
  | .conj _ => "AND"
  | .disj _ => "OR"
  | .neg _ => "NOT"
  | .includes _ => "INCLUDES"
  | .yes _ => "TRUE"
  | .no _ => "FALSE"
  | .absent _ => "NULL"
  | .opening => "LPAREN"
  | .closing => "RPAREN"
  | .comma => "COMMA"
  | .name _ => "IDENT"

/-- The value of a token: that of a literal, and the written text of any other token. -/
def value : Lexeme → Json
  | .quoted s => .str s
  | .number v => v
  | .comparison op => .str op.spelling
  | .minus => .str "-"
  | .conj w => .str w
  | .disj w => .str w
  | .neg w => .str w
  | .includes w => .str w
  | .yes w => .str w
  | .no w => .str w
  | .absent w => .str w
  | .opening => .str "("
  | .closing => .str ")"
  | .comma => .str ","
  | .name w => .str w

end Lexeme

/-- A token with the position of its first character. -/
structure Token where
  /-- What the token is. -/
  lexeme : Lexeme
  /-- Where it starts. -/
  position : Nat

/-- What a text that is no condition has in the place of the fault. -/
inductive Reason where
  /-- No token starts with this character. -/
  | unexpectedCharacter (c : Char)
  /-- The text ends too early. -/
  | unexpectedEnd
  /-- A token that cannot stand here; the end of the text counts as an absent value. -/
  | unexpectedToken (value : Json)
  /-- A token of another kind is required. -/
  | expected (kind : String) (value : Json)
  /-- A name in front of a bracket is no function. -/
  | unknownFunction (written : String)
  /-- A function has another number of arguments. -/
  | wrongArity (written : String) (arity given : Nat)

/-- The wording of a reason. -/
def Reason.message : Reason → String
  | .unexpectedCharacter c => "unexpected character " ++ Text.quote (String.ofList [c])
  | .unexpectedEnd => "unexpected end of expression"
  | .unexpectedToken v => "unexpected token " ++ v.literal
  | .expected kind v => "expected " ++ kind ++ ", got " ++ v.literal
  | .unknownFunction w => "unknown function " ++ Text.quote w
  | .wrongArity w arity given => w ++ s!"() takes {arity} argument(s), got {given}"

/-- Why and where a text is no condition. -/
structure SyntaxError where
  /-- The text. -/
  expression : String
  /-- What is wrong. -/
  reason : Reason
  /-- The position of the fault. -/
  position : Nat

/-- The wording of a syntax error. -/
def SyntaxError.message (e : SyntaxError) : String :=
  s!"Invalid condition at position {e.position}: " ++ e.reason.message ++ " in "
    ++ Text.quote e.expression

/-- The words with a meaning, in lower case. -/
def keyword? (written : String) : Option Lexeme :=
  match Unicode.lower written with
  | "and" => some (.conj written)
  | "or" => some (.disj written)
  | "not" => some (.neg written)
  | "includes" => some (.includes written)
  | "true" => some (.yes written)
  | "false" => some (.no written)
  | "null" => some (.absent written)
  | "undefined" => some (.absent written)
  | _ => none

/-- The token of a name: a word with a meaning, or the name itself. -/
def wordLexeme (written : String) : Lexeme := (keyword? written).getD (.name written)

/-- A quoted text after its opening quote `q`, its escapes resolved, and what follows its closing
quote.  A backslash makes the next character stand for itself, a line feed excepted. -/
def quotedBody? (q : Char) : List Char → Option (List Char × List Char)
  | [] => none
  | '\\' :: rest =>
    match rest with
    | [] => none
    | c :: rest' =>
      if c = '\n' then none else (quotedBody? q rest').map fun p => (c :: p.1, p.2)
  | c :: rest =>
    if c = q then some ([], rest) else (quotedBody? q rest).map fun p => (c :: p.1, p.2)

/-- An operator or punctuation at the start of a text, the longest that fits, and what follows
it. -/
def operator? : List Char → Option (Lexeme × List Char)
  | '=' :: '=' :: '=' :: rest => some (.comparison .tripleEqual, rest)
  | '!' :: '=' :: '=' :: rest => some (.comparison .strictUnequal, rest)
  | '=' :: '=' :: rest => some (.comparison .doubleEqual, rest)
  | '!' :: '=' :: rest => some (.comparison .unequal, rest)
  | '>' :: '=' :: rest => some (.comparison .greaterEqual, rest)
  | '<' :: '=' :: rest => some (.comparison .lessEqual, rest)
  | '&' :: '&' :: rest => some (.conj "&&", rest)
  | '|' :: '|' :: rest => some (.disj "||", rest)
  | '=' :: rest => some (.comparison .equal, rest)
  | '>' :: rest => some (.comparison .greater, rest)
  | '<' :: rest => some (.comparison .less, rest)
  | '!' :: rest => some (.neg "!", rest)
  | '-' :: rest => some (.minus, rest)
  | '(' :: rest => some (.opening, rest)
  | ')' :: rest => some (.closing, rest)
  | ',' :: rest => some (.comma, rest)
  | _ => none

/-- The parts of a name after its first, each after a point, and what follows them; `fuel` bounds
the length of the text. -/
def nameTail : Nat → List Char → List Char × List Char
  | 0, cs => ([], cs)
  | fuel + 1, cs =>
    match cs with
    | '.' :: rest =>
      let part := rest.takeWhile Unicode.isWord
      if part.isEmpty then ([], cs)
      else
        let tail := nameTail fuel (rest.dropWhile Unicode.isWord)
        ('.' :: part ++ tail.1, tail.2)
    | _ => ([], cs)

/-- A name at the start of a text, and what follows it.  It starts with a word character that is no
decimal digit, and its parts are separated by points. -/
def name? (cs : List Char) : Option (List Char × List Char) :=
  match cs with
  | [] => none
  | c :: _ =>
    if Unicode.isWord c && !Unicode.isDigit c then
      let tail := nameTail cs.length (cs.dropWhile Unicode.isWord)
      some (cs.takeWhile Unicode.isWord ++ tail.1, tail.2)
    else none

/-- The token at the start of a text, and what follows it. -/
def lexeme? (cs : List Char) : Option (Lexeme × List Char) :=
  match cs with
  | '\'' :: rest => (quotedBody? '\'' rest).map fun p => (.quoted (String.ofList p.1), p.2)
  | '"' :: rest => (quotedBody? '"' rest).map fun p => (.quoted (String.ofList p.1), p.2)
  | _ =>
    match Numeral.scan? cs with
    | some (n, rest) => some (.number (Json.ofWhole (n.toBinary64 false)), rest)
    | none =>
      match operator? cs with
      | some p => some p
      | none => (name? cs).map fun p => (wordLexeme (String.ofList p.1), p.2)

/-- The tokens of the rest of a text that starts at `position`; `fuel` bounds its length. -/
def scan (expression : String) : Nat → Nat → List Char → Except SyntaxError (List Token)
  | 0, _, _ => .ok []
  | _ + 1, _, [] => .ok []
  | fuel + 1, position, c :: rest =>
    if Unicode.isBlank c then scan expression fuel (position + 1) rest
    else
      match lexeme? (c :: rest) with
      | none => .error ⟨expression, .unexpectedCharacter c, position⟩
      | some (l, rest') =>
        match scan expression fuel (position + ((c :: rest).length - rest'.length)) rest' with
        | .ok tokens => .ok (⟨l, position⟩ :: tokens)
        | .error e => .error e

/-- The tokens of a text, or the first position where none starts. -/
def tokens (expression : String) : Except SyntaxError (List Token) :=
  scan expression (expression.toList.length + 1) 0 expression.toList

end Questionnaire.Condition
