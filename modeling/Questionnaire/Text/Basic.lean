import Questionnaire.Unicode.Blank

/-!
# Text operations

Trimming, splitting and searching, on lists of characters with a wrapper for strings.  "Blank" is
the Unicode notion throughout.

## Main Definitions

* `Text.trim` - a text without the blanks at its two ends
* `Text.collapse` - a text with each run of blanks written as one space
* `Text.splitWhere` - the pieces between separator characters
* `Text.lines` - the lines of a text
* `Text.withLineFeeds` - a text whose lines all end in a line feed
* `Text.occursIn` - whether one text lies inside another
-/

namespace Questionnaire.Text

/-- The characters without the blanks at their end. -/
def trimEnd (cs : List Char) : List Char := (cs.reverse.dropWhile Unicode.isBlank).reverse

/-- The characters without the blanks at their two ends. -/
def trimChars (cs : List Char) : List Char := trimEnd (cs.dropWhile Unicode.isBlank)

/-- A text without the blanks at its two ends. -/
def trim (s : String) : String := String.ofList (trimChars s.toList)

/-- A text of blanks only. -/
def isBlank (s : String) : Bool := s.toList.all Unicode.isBlank

/-- The characters with each run of blanks written as one space; `inRun` says that the run before
them has been written. -/
def collapseFrom (inRun : Bool) : List Char → List Char
  | [] => []
  | c :: rest =>
    if Unicode.isBlank c then
      if inRun then collapseFrom true rest else ' ' :: collapseFrom true rest
    else c :: collapseFrom false rest

/-- A text with each run of blanks written as one space. -/
def collapse (s : String) : String := String.ofList (collapseFrom false s.toList)

/-- The pieces between the characters that satisfy `p`; there is always at least one piece. -/
def splitWhere (p : Char → Bool) : List Char → List (List Char)
  | [] => [[]]
  | c :: rest =>
    if p c then [] :: splitWhere p rest
    else
      match splitWhere p rest with
      | [] => [[c]]
      | piece :: pieces => (c :: piece) :: pieces

theorem splitWhere_ne_nil (p : Char → Bool) (cs : List Char) : splitWhere p cs ≠ [] := by
  cases cs with
  | nil => simp [splitWhere]
  | cons c rest =>
    simp only [splitWhere]
    split
    · simp
    · split <;> simp

/-- The pieces of a text between the characters that satisfy `p`. -/
def split (p : Char → Bool) (s : String) : List String :=
  (splitWhere p s.toList).map String.ofList

/-- The trimmed pieces of a text between the characters that satisfy `p`, blank ones left out. -/
def splitTrimmed (p : Char → Bool) (s : String) : List String :=
  ((split p s).map trim).filter (· ≠ "")

/-- The lines of a text, where `afterReturn` says that a carriage return just ended a line, so that
a line feed belongs to it, and `line` holds the current line backwards. -/
def linesFrom (afterReturn : Bool) (line : List Char) : List Char → List (List Char)
  | [] => if line.isEmpty then [] else [line.reverse]
  | c :: rest =>
    if afterReturn && c == '\n' then linesFrom false line rest
    else if Unicode.isLineEnd c then line.reverse :: linesFrom (c == '\r') [] rest
    else linesFrom false (c :: line) rest

/-- The characters with every line end written as a line feed; `afterReturn` says that a carriage
return just ended a line. -/
def lineFeedsFrom (afterReturn : Bool) : List Char → List Char
  | [] => []
  | c :: rest =>
    if c = '\r' then '\n' :: lineFeedsFrom true rest
    else if afterReturn && c == '\n' then lineFeedsFrom false rest
    else c :: lineFeedsFrom false rest

/-- A text with every line end, be it a line feed, a carriage return or both, written as a line
feed. -/
def withLineFeeds (s : String) : String := String.ofList (lineFeedsFrom false s.toList)

/-- The lines of a text; a carriage return with a line feed ends one line. -/
def lines (s : String) : List String := (linesFrom false [] s.toList).map String.ofList

/-- The characters `needle` lie inside the characters `cs`. -/
def infixOf (needle : List Char) : List Char → Bool
  | [] => needle.isEmpty
  | c :: rest => needle.isPrefixOf (c :: rest) || infixOf needle rest

/-- One text lies inside another. -/
def occursIn (needle s : String) : Bool := infixOf needle.toList s.toList

/-- A text without the characters that satisfy `p`. -/
def without (p : Char → Bool) (s : String) : String := String.ofList (s.toList.filter (!p ·))

/-- A text filled up on the left with copies of `fill` to `width` characters. -/
def padStart (fill : Char) (width : Nat) (cs : List Char) : List Char :=
  List.replicate (width - cs.length) fill ++ cs

end Questionnaire.Text
