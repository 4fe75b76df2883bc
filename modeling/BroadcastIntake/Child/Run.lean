import BroadcastIntake.Child.Shell
import BroadcastIntake.Text.Decode

/-!
# Running a child process

Starts a program with its words, waits for it, and gives its exit code and what it wrote as texts.
A program that takes longer than its time limit is stopped, and so is one whose run is cancelled.
A program that is ended by a signal has the signal's number below zero as its code.
-/

namespace BroadcastIntake

namespace Child

/-- Why a program cannot be started. -/
inductive StartFault where
  | missing
  | notPermitted
  /-- A word holds a null character. -/
  | nullCharacter
  deriving DecidableEq, Repr

/-- A program that cannot be started. -/
structure StartError where
  fault : StartFault
  program : String
  deriving DecidableEq, Repr

def StartError.message (e : StartError) : String :=
  match e.fault with
  | .missing => FileError.message ⟨.missing, e.program⟩
  | .notPermitted => s!"[Errno 13] Permission denied: {Text.quoted e.program}"
  | .nullCharacter => FileError.message ⟨.nullCharacter, e.program⟩

/-- How a run of a child process ends. -/
inductive Outcome where
  | exited (code : Int) (output errors : String)
  | timedOut
  | cancelled
  deriving DecidableEq, Repr

/-- A finished child process: its code, what it wrote, and its time, unless it never ends. -/
structure Finished where
  code : Int
  output : ByteArray
  errors : ByteArray
  micros : Option Nat

def finishedOf (run : ProgramRun) : Finished :=
  match run.output with
  | .bytes content => ⟨run.status, content, run.errors.toUTF8, run.micros⟩
  | .endless _ _ => ⟨run.status, ByteArray.empty, run.errors.toUTF8, none⟩

/-- What comes of a shell that is run on its own. -/
def finishedShell (s : Shell) : Finished :=
  ⟨s.code, Shell.gathered s.output, Shell.gathered s.errors, s.totalMicros⟩

/-- Starts the program with a name, which is called by some word. -/
def start (word name : String) (words : List String) (tree : FileTree) : Option Finished :=
  if shellNames.contains name then some (finishedShell (Shell.runOrder tree word words))
  else (programs.lookup name).map fun program => finishedOf (program ⟨words, .empty, tree⟩)

def startFault (word : String) (tree : FileTree) : StartFault :=
  if word = "" then .notPermitted
  else if word.toList.contains '/' then
    match tree.pathExists (Path.ofString word) with
    | .ok true => .notPermitted
    | _ => .missing
  else .missing

def launch (word : String) (words : List String) (tree : FileTree) : Except StartError Finished :=
  if (word :: words).any fun w => w.toList.contains '\x00' then .error ⟨.nullCharacter, word⟩
  else
    match (programName? word).bind fun name => start word name words tree with
    | some finished => .ok finished
    | none => .error ⟨startFault word tree, word⟩

/-- Whether something that takes its time is done before a limit. -/
def isBefore (micros : Option Nat) (limit : Option Int) : Bool :=
  match micros, limit with
  | _, none => micros.isSome
  | some n, some limit => (n : Int) < limit
  | none, some _ => false

def cancelsFirst (cancel limit : Option Int) : Bool :=
  match cancel, limit with
  | some c, some t => c < t
  | some _, none => true
  | none, _ => false

/-- Runs a program with a time limit and a time after which the run is cancelled, both in
microseconds; none when the program never ends. -/
def run (word : String) (words : List String) (limit cancel : Option Int) (tree : FileTree) :
    Except StartError (Option Outcome) :=
  (launch word words tree).map fun f =>
    if isBefore f.micros limit && isBefore f.micros cancel then
      some (.exited f.code (Text.decode f.output) (Text.decode f.errors))
    else if cancelsFirst cancel limit then some .cancelled
    else limit.map fun _ => .timedOut

end Child

end BroadcastIntake
