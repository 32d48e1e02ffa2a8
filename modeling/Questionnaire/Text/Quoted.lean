import Questionnaire.Text.Basic
import Questionnaire.Unicode.Printable

/-!
# Quoted text

A quoted text stands between single quotes, or between double quotes when it holds a single quote
and no double quote.  The quote character, the backslash and characters without a visible form are
written as escapes.

## Main Definitions

* `Text.quote` - the quoted form of a text
* `Text.quoteAscii` - the quoted form with every non-ASCII character escaped
-/

namespace Questionnaire.Text

/-- The digits of a number in base sixteen, filled up with zeros to `width`. -/
def hex (width n : Nat) : List Char := padStart '0' width (Nat.toDigits 16 n)

/-- The escape of a character by its code point, in the shortest of the three widths. -/
def escapeCode (c : Char) : List Char :=
  let n := c.toNat
  if n < 0x100 then '\\' :: 'x' :: hex 2 n
  else if n < 0x10000 then '\\' :: 'u' :: hex 4 n
  else '\\' :: 'U' :: hex 8 n

/-- The quoted form of one character inside the quotes `q`. -/
def quoteChar (q c : Char) : List Char :=
  if c = q ∨ c = '\\' then ['\\', c]
  else if c = '\n' then ['\\', 'n']
  else if c = '\r' then ['\\', 'r']
  else if c = '\t' then ['\\', 't']
  else if Unicode.isPrintable c then [c]
  else escapeCode c

/-- The quote character that a text is written with. -/
def quoteMark (cs : List Char) : Char := if '\'' ∈ cs ∧ '"' ∉ cs then '"' else '\''

/-- The quoted form of a text, as characters. -/
def quoteChars (cs : List Char) : List Char :=
  let q := quoteMark cs
  q :: cs.flatMap (quoteChar q) ++ [q]

/-- The quoted form of a text. -/
def quote (s : String) : String := String.ofList (quoteChars s.toList)

/-- A text with every non-ASCII character written as an escape. -/
def escapeNonAscii (s : String) : String :=
  String.ofList (s.toList.flatMap fun c => if c.toNat < 128 then [c] else escapeCode c)

/-- The quoted form of a text with every non-ASCII character escaped. -/
def quoteAscii (s : String) : String := escapeNonAscii (quote s)

end Questionnaire.Text
