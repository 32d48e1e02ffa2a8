import Questionnaire.Fault

/-!
# Places of files

The files of a store lie in three folders below one directory.  A path is followed part by part from
that directory, so a path may take a detour as long as each part of it exists.

## Main Definitions

* `Place` - where a path has led so far
* `Place.step` - one part of a path further
* `Place.ofPath` - where a path leads

## Design Notes

Folders are neither made nor removed, so the three folders are always there and no others.  What
lies outside the directory is not looked at: a file there counts as missing for what follows it.
-/

namespace Questionnaire

/-- Where a path has led so far. -/
inductive Place where
  /-- A directory outside. -/
  | outside
  /-- The directory of the store. -/
  | base
  /-- A folder in it. -/
  | folder (name : String)
  /-- A file that may exist or not, in the directory or in a folder of it. -/
  | file (path : String)
  /-- A file outside. -/
  | stray
  deriving DecidableEq, Repr

namespace Place

/-- The folders. -/
def folders : List String := ["fields", "pointers", "history"]

/-- The greatest length of a part of a path in bytes. -/
def maxLength : Nat := 255

/-- A part of a path that is not too long. -/
def checkLength (part : String) : Except Fault Unit :=
  if maxLength < part.utf8ByteSize then .error (.file .nameTooLong part) else .ok ()

/-- The path of a file in a folder. -/
def inFolder (folder name : String) : String := folder ++ "/" ++ name

/-- One part of a path further, where `isFile` tells which files exist. -/
def step (isFile : String → Bool) (place : Place) (part : String) : Except Fault Place := do
  match place with
  | .file path => .error (.file (if isFile path then .notDirectory else .missing) path)
  | .stray => .error (.file .missing part)
  | .outside => do
    checkLength part
    pure (if part = ".." then .outside else .stray)
  | .base => do
    checkLength part
    pure (if part = ".." then .outside
      else if folders.contains part then .folder part
      else .file part)
  | .folder name => do
    checkLength part
    pure (if part = ".." then .base else .file (inFolder name part))

/-- Where parts of a path lead from a place. -/
def walk (isFile : String → Bool) (place : Place) : List String → Except Fault Place
  | [] => .ok place
  | part :: rest => do
    let next ← step isFile place part
    walk isFile next rest

/-- The parts of a path that say something. -/
def partsOf (path : String) : List String :=
  (Text.split (· == '/') path).filter fun part => part ≠ "" && part ≠ "."

/-- Where a path leads; a path that begins with a slash does not begin in the directory. -/
def ofPath (isFile : String → Bool) (path : String) : Except Fault Place :=
  walk isFile (if path.toList.head? = some '/' then .outside else .base) (partsOf path)

theorem ofPath_empty (isFile : String → Bool) : ofPath isFile "" = .ok .base := rfl

end Place

end Questionnaire
