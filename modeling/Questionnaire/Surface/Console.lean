import Questionnaire.Catalog.Loading
import Questionnaire.Turn.Flow

/-!
# The console surface

A conversation on a console: every turn is shown with what it did, and lines of input are the
answers.

## Main Definitions

* `Console.Options` - the command line
* `Console.opening` - the text before the first turn
* `Console.turn` - one turn, its text, and how to go on
* `Console.play` - the text of a whole conversation
-/

namespace Questionnaire.Console

/-- The command line. -/
structure Options where
  /-- The path of the catalog. -/
  path : Option String
  /-- The store is kept in files. -/
  persist : Bool

namespace Options

/-- An argument that is an option. -/
def isOption (arg : String) : Bool := "--".isPrefixOf arg

/-- The command line of arguments; unknown options are ignored. -/
def ofArgs (args : List String) : Options :=
  ⟨(args.filter (!isOption ·)).head?, args.contains "--persist"⟩

end Options

/-- The user of a console. -/
def user : String := "console"

/-- A line of output. -/
def line (s : String) : String := s ++ "\n"

/-- A line of sixty equal characters. -/
def separator (c : Char) : String := line (String.ofList (List.replicate 60 c))

/-- A title between separators. -/
def titled (title : String) : String := separator '=' ++ line title ++ separator '='

/-- A named list of parts in literal notation. -/
def record (name : String) (parts : List (String × Json)) : String :=
  bracketed (name ++ "(") ")" (parts.map fun p => p.1 ++ "=" ++ p.2.literal)

/-- A reason for asking again in literal notation. -/
def errorText : TurnError → String
  | .rejection r =>
    record "AnswerParseError" [("qid", r.qid), ("message", .str r.message), ("code", .str r.code)]
  | .failure f =>
    record "ValidationFailure"
      [("rule_name", f.ruleName), ("field_key", f.fieldKey), ("message", f.message)]

/-- What a turn did. -/
def noteText : TurnNote → String
  | .nothing => ""
  | .applied given derived pending =>
    line ("Applied: " ++ Fields.literal given)
    ++ (if derived.isEmpty then "" else line ("Derived updates: " ++ Fields.literal derived))
    ++ line s!"Pending attachments: {pending}"
  | .tableRows count => line s!"Table rows in draft: {count}"

/-- The diagnosis of a turn. -/
def diagnosis (r : TurnResult) : String :=
  line "" ++ separator '-' ++ line "DEBUG INFO:" ++ separator '-'
  ++ line ("Transitions: " ++ (Json.arr (r.transitions.map fun t => .str t.name)).literal)
  ++ (if r.isStale then line "Stale pointer recovered (answer discarded)" else "")
  ++ noteText r.note
  ++ (match r.error with
    | some e => line ("Re-prompt reason: " ++ errorText e)
    | none => "")
  ++ separator '-'

/-- How a conversation goes on. -/
inductive Next where
  /-- With a line of input. -/
  | ask
  /-- With an empty answer. -/
  | again
  /-- Not at all. -/
  | done
  deriving DecidableEq, Repr

/-- What follows a turn: further text, and how the conversation goes on. -/
def afterTurn (r : TurnResult) (turns : Nat) : String × Next :=
  match r.kind with
  | .handoff =>
    (titled "HANDOFF" ++ String.join (r.handoffReasons.map fun v => line ("  - " ++ v.display)),
      .again)
  | .terminal => (titled "FLOW COMPLETE" ++ line s!"Turns: {turns}", .done)
  | .prompt => ("> ", .ask)

/-- The words that end a conversation. -/
def quitWords : List String := ["quit", "exit", "stop"]

/-- An input ends the conversation. -/
def isQuit (input : String) : Bool := quitWords.contains (Unicode.lower input)

/-- The text of ending a conversation. -/
def quitText : String := line "" ++ line "Ended early by user"

/-- The text at the end. -/
def closing : String := titled "Console test complete"

/-- The text at the beginning. -/
def header : String := titled "INTAKE FLOW - CONSOLE TEST"

/-- The text of a catalog that is used. -/
def welcome (c : Catalog) : String :=
  line "" ++ line ("Catalog loaded: " ++ c.name ++ " v" ++ c.version)
  ++ line "Type 'quit', 'exit', or 'stop' to end early" ++ line ""

/-- The text of a failure to begin. -/
def refusal (e : Fault) : String := line "" ++ line ("Failed to initialize: " ++ e.message)

/-- The flow of a console: it recognises the wish to go on. -/
def flowOf (loaded : Except Fault (Catalog × List Catalog.Warning)) : Except Fault Flow := do
  let (c, _) ← loaded
  Flow.create c (some (Preparer.continueIntent [])) []

variable {σ : Type} [Store σ]

/-- One turn: its text, how to go on, and the world after it.  A turn that fails says nothing and
ends the conversation; `turns` counts the turns before. -/
def turn (f : Flow) (input : String) (turns : Nat) (w : World σ) : (String × Next) × World σ :=
  match (f.processTurn user (.str input) .null).run w with
  | (.error _, w) => (("", .done), w)
  | (.ok r, w) =>
    let (text, next) := afterTurn r (turns + 1)
    ((line "" ++ line ("System: " ++ r.output) ++ line "" ++ diagnosis r ++ text, next), w)

/-- The text of a conversation from a turn on; `fuel` bounds the number of turns. -/
def turnsFrom (f : Flow) : Nat → List String → String → Nat → World σ → String
  | 0, _, _, _, _ => ""
  | fuel + 1, lines, input, turns, w =>
    match turn f input turns w with
    | ((text, .done), _) => text
    | ((text, .again), w) => text ++ turnsFrom f fuel lines "" (turns + 1) w
    | ((text, .ask), w) =>
      match lines with
      | [] => text
      | l :: rest =>
        let answer := Text.trim l
        if isQuit answer then text ++ quitText
        else text ++ turnsFrom f fuel rest answer (turns + 1) w

/-- The exit code and the text of a whole conversation, where `lines` is the input. -/
def play (flow : Except Fault Flow) (lines : List String) (w : World σ) : Nat × String :=
  match flow with
  | .error e => (1, header ++ refusal e)
  | .ok f =>
    (0, header ++ welcome f.catalog ++ turnsFrom f (2 * lines.length + 4) lines "" 0 w ++ closing)

end Questionnaire.Console
