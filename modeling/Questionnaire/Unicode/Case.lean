import Questionnaire.Unicode.CaseTables
import Questionnaire.Unicode.Ranges

/-!
# Case mapping

Lower-casing, case folding and comparison of letters without regard to case.  Lower-casing a text
looks at its context in one place: a capital sigma at the end of a word becomes the final sigma.

## Main Definitions

* `Unicode.lowerChar` - the lower-case form of a letter, as one letter
* `Unicode.lower` - the lower-case form of a text
* `Unicode.fold` - the folded form of a text, equal for texts that differ in case only
* `Unicode.sameLetter` - equality of two letters without regard to case
-/

namespace Questionnaire.Unicode

/-- The image of a letter under the first run that holds it, and the letter itself without one. -/
def mapByRuns (runs : List CaseRun) (c : Char) : Char :=
  match runs.findSome? fun r => r.apply? c.toNat with
  | some n => Char.ofNat n
  | none => c

/-- The lower-case form of a letter, as one letter. -/
def lowerChar (c : Char) : Char := mapByRuns lowerRuns c

/-- A character that the sigma rule looks through. -/
def isCaseIgnorable (c : Char) : Bool := covers caseIgnorableRanges c.toNat

/-- A character that has case. -/
def isCased (c : Char) : Bool := covers casedRanges c.toNat

/-- The first character that the sigma rule does not look through has case. -/
def startsCased : List Char → Bool
  | [] => false
  | c :: rest => if isCaseIgnorable c then startsCased rest else isCased c

/-- The lower-case form of one character; `afterCased` says that a cased character precedes it and
`rest` is what follows it. -/
def lowerAt (afterCased : Bool) (c : Char) (rest : List Char) : List Char :=
  if c = 'Σ' then
    if afterCased && !startsCased rest then ['ς'] else ['σ']
  else if c = 'İ' then ['i', '\u0307']
  else [lowerChar c]

/-- The lower-case form of the rest of a text; `afterCased` says that a cased character precedes
it. -/
def lowerFrom (afterCased : Bool) : List Char → List Char
  | [] => []
  | c :: rest =>
    lowerAt afterCased c rest ++
      lowerFrom (if isCaseIgnorable c then afterCased else isCased c) rest

/-- The lower-case form of a text. -/
def lower (s : String) : String := String.ofList (lowerFrom false s.toList)

/-- The folded form of a letter.  The capital letters of Cherokee are their own folded form. -/
def foldChar (c : Char) : List Char :=
  match foldTexts.lookup c.toNat with
  | some ns => ns.map Char.ofNat
  | none =>
    match foldRuns.findSome? fun r => r.apply? c.toNat with
    | some n => [Char.ofNat n]
    | none => if 0x13A0 ≤ c.toNat ∧ c.toNat ≤ 0x13F5 then [c] else [lowerChar c]

/-- The folded form of a text. -/
def fold (s : String) : String := String.ofList (s.toList.flatMap foldChar)

/-- Two letters are the same without regard to case when their lower-case forms agree or share an
upper-case form. -/
def sameLetter (a b : Char) : Bool :=
  let l := (lowerChar a).toNat
  let m := (lowerChar b).toNat
  l == m || ((caseTwins.lookup l).getD []).contains m

theorem sameLetter_refl (c : Char) : sameLetter c c = true := by simp [sameLetter]

end Questionnaire.Unicode
