import Questionnaire.Store.Basic

/-!
# The world of a turn

A turn reads and writes a store, takes fresh session identifiers and looks at the clock.  What it
has written stays written when it fails later.

## Main Definitions

* `World` - the store with the sources of session identifiers and times
* `TurnM` - a computation that acts on a world and may fail
-/

namespace Questionnaire

/-- The store with the sources of session identifiers and times. -/
structure World (σ : Type) where
  /-- The store. -/
  store : σ
  /-- The number of session identifiers that were given out. -/
  sessions : Nat := 0
  /-- The time of the turn. -/
  now : String

/-- A computation that acts on a world and may fail.  Its writes stay when it fails. -/
abbrev TurnM (σ : Type) := ExceptT Fault (StateM (World σ))

/-- The digits of a session identifier in full. -/
def sessionDigits (n : Nat) : String := String.ofList (Text.hex 8 n ++ List.replicate 24 '0')

/-- The session identifier of a number. -/
def sessionText (n : Nat) : String := String.ofList ((sessionDigits n).toList.take 8)

namespace TurnM

variable {σ : Type}

/-- A result that may be a failure. -/
def lift {α : Type} (r : Except Fault α) : TurnM σ α :=
  match r with
  | .ok a => pure a
  | .error e => throw e

/-- A fresh session identifier. -/
def freshSession : TurnM σ String := do
  let w ← get
  set { w with sessions := w.sessions + 1 }
  pure (sessionText (w.sessions + 1))

/-- Change the store; a change that fails leaves it as it was. -/
def changeStore (f : σ → Except Fault σ) : TurnM σ Unit := do
  let w ← get
  let store ← lift (f w.store)
  set { w with store := store }

variable [Store σ]

/-- The values that a scope sees. -/
def getFields (user : String) (scope : Json) : TurnM σ Fields := do
  let w ← get
  lift (Store.getFields w.store user scope)

/-- Write a patch into a scope. -/
def setFields (user : String) (scope : Json) (patch : Fields) : TurnM σ Unit :=
  changeStore fun s => Store.setFields s user scope patch

/-- The pointer of a user. -/
def getPointer (user : String) : TurnM σ (Option Pointer) := do
  let w ← get
  lift (Store.getPointer w.store user)

/-- Write the pointer of a user. -/
def savePointer (user : String) (p : Pointer) : TurnM σ Unit :=
  changeStore fun s => Store.savePointer s user p

/-- Remove the pointer of a user. -/
def deletePointer (user : String) : TurnM σ Unit :=
  changeStore fun s => Store.deletePointer s user

/-- Record that a section was completed, and give the record. -/
def appendCompletion (user : String) (section_ sessionId position : Json) :
    TurnM σ CompletionRecord := do
  let w ← get
  let record : CompletionRecord := ⟨section_, position, sessionId, .str w.now⟩
  changeStore fun s => Store.appendCompletion s user record
  pure record

end TurnM

end Questionnaire
