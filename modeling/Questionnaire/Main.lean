import Questionnaire.Store.Files
import Questionnaire.Store.Memory
import Questionnaire.Surface.Console
import Questionnaire.Turn.Clock
import Std.Time.DateTime.Timestamp

/-!
# The command line

Runs a conversation on the console.  The first argument is the path of the catalog, and `--persist`
keeps the store in files.
-/

namespace Questionnaire.CommandLine

/-- The path of the catalog without any other choice. -/
def standardCatalog : String := "data/sample_catalog.json"

/-- The folder of the files without any other choice. -/
def standardFolder : String := "outputs/questionnaire"

/-- The text of a file, if it can be read. -/
def readText (path : String) : IO (Option String) := do
  try
    let text ← IO.FS.readFile path
    pure (some text)
  catch _ => pure none

/-- The paths of the files of the console. -/
def storedPaths : List String :=
  [FileStore.fieldsPath Console.user, FileStore.pointerPath Console.user,
    FileStore.historyPath Console.user]

/-- The files of the console in a folder. -/
def loadFiles (folder : String) : IO FileStore := do
  let mut store : FileStore := {}
  for path in storedPaths do
    if let some text ← readText (folder ++ "/" ++ path) then
      store := store.write path (Text.withLineFeeds text)
  pure store

/-- Write the files of the console into a folder. -/
def saveFiles (folder : String) (store : FileStore) : IO Unit := do
  for name in ["fields", "pointers", "history"] do
    IO.FS.createDirAll (folder ++ "/" ++ name)
  for path in storedPaths do
    match store.text? path with
    | some text => IO.FS.writeFile (folder ++ "/" ++ path) text
    | none =>
      try IO.FS.removeFile (folder ++ "/" ++ path)
      catch _ => pure ()

/-- The time in its notation. -/
def currentTime : IO String := do
  let now ← Std.Time.Timestamp.now
  pure (Clock.render now.toSecondsSinceUnixEpoch.val.toNat)

/-- Print a text at once. -/
def say (text : String) : IO Unit := do
  let output ← IO.getStdout
  output.putStr text
  output.flush

/-- Turns until the conversation ends; `save` keeps the store after each of them. -/
partial def converse {σ : Type} [Store σ] (f : Flow) (save : σ → IO Unit) (input : String)
    (turns : Nat) (w : World σ) : IO Unit := do
  let now ← currentTime
  let ((text, next), w) := Console.turn f input turns { w with now := now }
  save w.store
  say text
  match next with
  | .done => pure ()
  | .again => converse f save "" (turns + 1) w
  | .ask =>
    let line ← (← IO.getStdin).getLine
    if line.isEmpty then pure ()
    else
      let answer := Text.trim line
      if Console.isQuit answer then say Console.quitText
      else converse f save answer (turns + 1) w

/-- The whole conversation with a store. -/
def run {σ : Type} [Store σ] (f : Flow) (save : σ → IO Unit) (store : σ) : IO Unit := do
  let start ← IO.rand 0 4294967295
  say (Console.welcome f.catalog)
  converse f save "" 0 ⟨store, start, ""⟩
  say Console.closing

end Questionnaire.CommandLine

open Questionnaire in
/-- The program. -/
def main (args : List String) : IO UInt32 := do
  let options := Console.Options.ofArgs args
  let chosen ← IO.getEnv "QUESTIONNAIRE_CATALOG"
  let path := options.path.getD (chosen.getD CommandLine.standardCatalog)
  CommandLine.say Console.header
  let text ← CommandLine.readText path
  match Console.flowOf (Catalog.ofText text path) with
  | .error e =>
    CommandLine.say (Console.refusal e)
    return 1
  | .ok f =>
    if options.persist then
      let folder := (← IO.getEnv "QUESTIONNAIRE_DATA_DIR").getD CommandLine.standardFolder
      let store ← CommandLine.loadFiles folder
      CommandLine.run f (CommandLine.saveFiles folder) store
    else
      CommandLine.run f (fun _ => pure ()) ({} : MemoryStore)
    return 0
