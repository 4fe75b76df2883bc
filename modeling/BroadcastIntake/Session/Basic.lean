import BroadcastIntake.CommandLine
import BroadcastIntake.Console.Report
import BroadcastIntake.Crash
import BroadcastIntake.LogFile
import BroadcastIntake.ProfileFile
import BroadcastIntake.Report.File
import BroadcastIntake.Text.Order
import BroadcastIntake.Tool.Basic

/-!
# Sessions

A session is one run of the intake from its command line to its exit.  Its actions work on a state:
the file tree, where records go, what has been printed, and which tools have been called.  An action
may end the session, by an exit or by a failure that nothing takes care of.

All that a session meets and cannot change is its world.
-/

namespace BroadcastIntake

/-- What a session meets: the conduct of the tools, the environment, the date and the time, how
many microseconds a batch takes, and why no cluster can be started, if that is so. -/
structure World where
  tools : Toolbox
  environment : List (String × String)
  today : BroadcastDate
  now : Timestamp
  batchMicros : Int
  clusterFault : Option String

/-- What is printed at one time: a single item, or all that there is to say about a job. -/
inductive Notice where
  | item (item : ConsoleItem)
  | job (items : List ConsoleItem)
  deriving DecidableEq, Repr

namespace Notice

def item? : Notice → Option ConsoleItem
  | item i => some i
  | job _ => none

def lines? : Notice → Option (List String)
  | item _ => none
  | job items => some (items.filterMap ConsoleItem.line?)

/-- All that is printed, in order. -/
def printed (notices : List Notice) : List ConsoleItem :=
  notices.flatMap fun
    | item i => [i]
    | job items => items

/-- All that is printed.  The order in which jobs end is not fixed, so what is said about them
stands in the order of its text, where the first of it is printed. -/
def arranged (notices : List Notice) : List ConsoleItem :=
  let before := notices.takeWhile fun n => n.item?.isSome
  let jobs := (notices.filterMap lines?).mergeSort Text.wordsLe
  before.filterMap item? ++ jobs.flatten.map .line ++
    (notices.drop before.length).filterMap item?

end Notice

/-- The state of a session. -/
structure SessionState where
  tree : FileTree
  logging : LogSetup
  shown : List Notice
  calls : List ToolCall

/-- A failure that ends a session and that nothing takes care of. -/
inductive SessionFailure where
  | settings (issues : List Issue)
  /-- The environment file is not a text in UTF-8. -/
  | environmentNotText
  | logging (error : LogSetupError)
  | profile (error : ProfileLoadError)
  | file (error : FileError)
  | crash (crash : Crash)
  | report (error : ReportError)
  | time (fault : TimeFault)
  /-- A tool never ends. -/
  | stuck
  deriving DecidableEq, Repr

def SessionFailure.message : SessionFailure → String
  | settings issues => String.intercalate "\n" (issues.map Issue.line)
  | environmentNotText => "the environment file is not a text"
  | logging e => e.message
  | profile e => e.message
  | file e => e.message
  | crash c => c.message
  | report e => e.message
  | time .mixedZones => "only one of two times names its zone"
  | stuck => "a tool never ends"

/-- How a session ends. -/
inductive SessionEnd where
  | help
  | fault (fault : CommandLineFault)
  /-- With an exit code, and with what was said on the channel for errors. -/
  | exit (code : Nat) (errors : String)
  | failure (failure : SessionFailure)
  deriving DecidableEq, Repr

abbrev Session := ExceptT SessionEnd (StateM SessionState)

namespace Session

/-! ## Small actions -/

def stop {α : Type} (ending : SessionEnd) : Session α :=
  throw ending

def fail {α : Type} (failure : SessionFailure) : Session α :=
  stop (.failure failure)

def tree : Session FileTree := do
  return (← get).tree

def setTree (tree : FileTree) : Session Unit :=
  modify fun s => { s with tree }

def print (item : ConsoleItem) : Session Unit :=
  modify fun s => { s with shown := s.shown ++ [.item item] }

/-- Prints several things. -/
def printAll (items : List ConsoleItem) : Session Unit :=
  modify fun s => { s with shown := s.shown ++ items.map .item }

def printJob (items : List ConsoleItem) : Session Unit :=
  modify fun s => { s with shown := s.shown ++ [.job items] }

def noteCalls (calls : List ToolCall) : Session Unit :=
  modify fun s => { s with calls := s.calls ++ calls }

/-- Takes the result of something that makes records, and writes the records where they go. -/
def told {α : Type} (w : World) (x : Logged α) : Session α := do
  modify fun s => { s with tree := s.logging.noteAll w.now s.tree x.records }
  return x.value

/-- Does something to the file tree that makes records. -/
def working {α : Type} (w : World) (f : FileTree → Logged (FileTree × α)) : Session α := do
  let x := f (← tree)
  setTree x.value.1
  told w ((·.2) <$> x)

def orFail {ε α : Type} (failure : ε → SessionFailure) : Except ε α → Session α
  | .ok x => return x
  | .error e => fail (failure e)

end Session

end BroadcastIntake
