import BroadcastIntake.Crash
import BroadcastIntake.Log

/-!
# Output files

How the files that a job makes come about and go away.

* *Reserving* a path makes an empty file at the first free one of the path and its numbered
  siblings `stem_1.suffix`, `stem_2.suffix`, ….  Making the file is what claims the path, so two
  jobs that reserve are never given the same one.
* *Copying* replaces what stands at the destination.
* *Removing* never fails: what cannot be removed is told.
-/

namespace BroadcastIntake

/-- Why a file is not copied. -/
inductive CopyFault where
  | noDirectory (directory : Path) (error : FileError)
  | noFile (candidate : Path) (error : FileError)
  | tooManyConflicts (path : Path)
  | sourceMissing (path : Path)
  | failed (error : FileError)
  | sameFile (source destination : Path)
  /-- A copier gives a reason of its own. -/
  | refused (reason : String)
  deriving DecidableEq, Repr

/-- How copying can fail: with a fault or with a crash. -/
inductive CopyError where
  | fault (fault : CopyFault)
  | crash (crash : Crash)
  deriving DecidableEq, Repr

namespace CopyFault

def message : CopyFault → String
  | noDirectory directory error =>
    s!"Cannot create output directory {directory}: {error.message}"
  | noFile candidate error => s!"Cannot create output file {candidate}: {error.message}"
  | tooManyConflicts path => s!"Too many file conflicts, unable to resolve {path}"
  | sourceMissing path => s!"Source file not found: {path}"
  | failed error => s!"File copy failed: {error.message}"
  | sameFile source destination =>
    let first := Text.quoted source.toString
    let second := Text.quoted destination.toString
    s!"File copy failed: {first} and {second} are the same file"
  | refused reason => reason

end CopyFault

namespace OutputFile

def logger : String := "radio_ingest.file_utils"

/-- A failed file operation as a fault, or as a crash when the path itself is not usable. -/
def faultOr (e : FileError) (fault : FileError → CopyFault) : CopyError :=
  if e.fault.isSystem then .fault (fault e) else .crash (.file e)

/-! ## Reserving -/

/-- How many paths are tried before a reservation is given up. -/
def maxCandidates : Nat := 1000

/-- The candidate with the given number: the path itself first, then its numbered siblings. -/
def candidate (path : Path) (n : Nat) : Path :=
  if n = 0 then path else path.withName s!"{path.stem}_{n}{path.suffix}"

/-- Claims the first free one of the candidates from number `n` on, of which `left` are left. -/
def claim (tree : FileTree) (path : Path) (n : Nat) :
    Nat → Except CopyError (Path × FileTree)
  | 0 => .error (.fault (.tooManyConflicts path))
  | left + 1 =>
    match tree.createNew (candidate path n) with
    | .ok made => .ok (candidate path n, made)
    | .error e =>
      if e.fault = .alreadyExists then
        if path.name = "" then .error (.crash (.namelessPath path))
        else claim tree path (n + 1) left
      else .error (faultOr e (.noFile (candidate path n)))

/-- Reserves a path, or the first of its numbered siblings that is free, by making an empty file.
The directories above are made first. -/
def reserve (tree : FileTree) (path : Path) : Logged (FileTree × Except CopyError Path) :=
  match tree.makeDirectories path.parent with
  | (made, some e) => return (made, .error (faultOr e (.noDirectory path.parent)))
  | (made, none) =>
    match claim made path 0 maxCandidates with
    | .error e => return (made, .error e)
    | .ok (found, claimed) => do
      if found ≠ path then
        Logged.tell .info logger s!"File conflict resolved: {path} -> {found}"
      return (claimed, .ok found)

/-! ## Copying -/

/-- Whether two paths denote the same file or directory. -/
def isSame (tree : FileTree) (source destination : Path) : Bool :=
  match tree.locate source, tree.locate destination with
  | .ok (first, some _), .ok (second, some _) => first = second
  | _, _ => false

/-- Copies the content of a file into a tree that has the directories above the destination.  A
destination that no file can have is found before the source is looked at. -/
def copyContent (tree : FileTree) (source destination : Path) : Except CopyError FileTree :=
  if destination.hasNull then
    .error (.crash (.file ⟨.nullCharacter, destination.toString⟩))
  else if isSame tree source destination then
    .error (.fault (.sameFile source destination))
  else
    match tree.read source with
    | .error e => .error (faultOr e .failed)
    | .ok content =>
      match tree.write destination content with
      | .error e => .error (faultOr e .failed)
      | .ok written => .ok written

/-- Copies a file, replacing what stands at the destination.  The directories above it are made
first. -/
def copy (tree : FileTree) (source destination : Path) :
    Logged (FileTree × Except CopyError Unit) :=
  match tree.makeDirectories destination.parent with
  | (made, some e) => return (made, .error (faultOr e .failed))
  | (made, none) =>
    match copyContent made source destination with
    | .error e => return (made, .error e)
    | .ok copied => do
      Logged.tell .debug logger s!"File copy completed: {source} -> {destination}"
      return (copied, .ok ())

/-! ## Removing -/

/-- Removes a file if it is there; what cannot be removed stays and is told. -/
def removePartial (tree : FileTree) (path : Path) : Logged FileTree := do
  let removed : Except FileError (Option FileTree) :=
    match tree.pathExists path with
    | .error e => .error e
    | .ok false => .ok none
    | .ok true => (tree.remove path).map some
  match removed with
  | .ok none => return tree
  | .ok (some smaller) =>
    Logged.tell .info logger s!"Removed partial output: {path.name}"
    return smaller
  | .error e =>
    Logged.tell .warning logger s!"Could not remove partial output {path}: {e.message}"
    return tree

end OutputFile

end BroadcastIntake
