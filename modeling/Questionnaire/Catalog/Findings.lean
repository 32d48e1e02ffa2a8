import Questionnaire.Catalog.Basic
import Questionnaire.Condition.Evaluation

/-!
# Findings on loading a catalog

Loading a catalog goes on after a defect, so that all of them are reported together.  What is only
suspicious is a warning.

## Main Definitions

* `Catalog.Warning` - something suspicious
* `Catalog.Findings` - defects and warnings found so far
* `Catalog.Build` - a step of loading
-/

namespace Questionnaire.Catalog

/-- Something suspicious in a catalog. -/
inductive Warning where
  /-- An attachment without a field is left out. -/
  | attachmentWithoutField (item : Json)
  /-- A derived rule maps to a question that does not exist. -/
  | ruleWithoutQuestion (target qid : Json)
  /-- A condition cannot be read. -/
  | malformedCondition (place : String) (cause : Condition.SyntaxError)

/-- The wording of a warning. -/
def Warning.message : Warning → String
  | .attachmentWithoutField item =>
    "Attachment item without field_key skipped: " ++ item.display
  | .ruleWithoutQuestion target qid =>
    "Derived rule for '" ++ target.display ++ "' maps to unknown question '" ++ qid.display
      ++ "'; it will be skipped"
  | .malformedCondition place cause =>
    "Malformed condition in " ++ place ++ " (evaluates to False): " ++ cause.message

/-- Defects and warnings found so far, in order. -/
structure Findings where
  /-- The defects. -/
  problems : List Problem := []
  /-- The warnings. -/
  warnings : List Warning := []

/-- A step of loading: it adds to the findings, or fails at once. -/
abbrev Build := StateT Findings (Except Fault)

namespace Build

/-- Report a defect. -/
def report (p : Problem) : Build Unit :=
  modify fun f => { f with problems := f.problems ++ [p] }

/-- Report a warning. -/
def warn (w : Warning) : Build Unit :=
  modify fun f => { f with warnings := f.warnings ++ [w] }

/-- Report a defect in the place of a result. -/
def reject {α : Type} (p : Problem) : Build (Option α) := do
  report p
  pure none

/-- The results of the items of a list, counted from `index`; an item may have none. -/
def collect {α : Type} (f : Nat → Json → Build (Option α)) :
    Nat → List Json → Build (List α)
  | _, [] => pure []
  | index, item :: rest => do
    let r ← f index item
    let rs ← collect f (index + 1) rest
    pure (r.toList ++ rs)

end Build

end Questionnaire.Catalog
