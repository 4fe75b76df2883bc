import BroadcastIntake.Console.Plain
import BroadcastIntake.Session
import Std.Time.DateTime.Timestamp

/-!
# The command

Runs a session on the files of the machine.  The files below the working directory are read into a
tree, the session works on the tree, and what it changed is written back.

No other program is started from here: every tool counts as absent, so files are planned with the
assumed duration, and copied where they would have been transcoded.
-/

namespace BroadcastIntake

namespace Command

/-- Reads everything below a directory, as far down as `depth`. -/
def readBelow (directory : String) : Nat → FileTree → IO FileTree
  | 0, tree => return tree
  | depth + 1, tree => do
    let found ← IO.FS.realPath directory
    let mut tree := tree
    for entry in ← found.readDir do
      let path := directory ++ "/" ++ entry.fileName
      if ← entry.path.isDir then
        tree ← readBelow path depth (tree.plant (Path.ofString path) .directory)
      else
        tree := tree.plant (Path.ofString path) (.file (← IO.FS.readBinFile path))
    return tree

/-- How far down directories are read. -/
def maxDepth : Nat := 64

/-- The tree of the working directory. -/
def readTree : IO FileTree := do
  let here ← IO.FS.realPath "."
  readBelow "." maxDepth (FileTree.empty (Path.ofString here.toString).names)

def writeEntry (names : List String) (entry : Entry) : IO Unit :=
  let path := String.intercalate "/" names
  match entry with
  | .directory => IO.FS.createDirAll path
  | .file content => IO.FS.writeBinFile path content

def writeChanges (earlier later : FileTree) : IO Unit := do
  for (names, entry) in earlier.changesSince later do
    writeEntry names entry
  for names in later.missingSince earlier do
    IO.FS.removeFile (String.intercalate "/" names)

def readEnvironment : IO (List (String × String)) := do
  let mut bindings := []
  for name in Settings.names do
    let variable_ := (Settings.nameStart ++ name).toUpper
    if let some value ← IO.getEnv variable_ then
      bindings := bindings ++ [(variable_, value)]
  return bindings

/-- The present time, by universal time. -/
def readClock : IO Timestamp := do
  let time ← Std.Time.Timestamp.now
  return ⟨time.toSecondsSinceUnixEpoch.val * Timestamp.microsPerSecond, false⟩

def dateOf (time : Timestamp) : BroadcastDate :=
  let (year, month, day) := time.date
  (BroadcastDate.ofParts? year month day).getD BroadcastDate.first

/-- What a session on this machine meets. -/
def readWorld : IO World := do
  let now ← readClock
  let world : World :=
    { tools := ToolConduct.toolless
      environment := ← readEnvironment
      today := dateOf now
      now
      batchMicros := 0
      clusterFault := some "no cluster on this machine" }
  return world

/-- What is said on the channel for errors, and the exit code. -/
def farewell : SessionEnd → String × UInt32
  | .help => (CommandLine.usage, 0)
  | .fault f => (f.message, 2)
  | .exit code errors => (errors, UInt32.ofNat code)
  | .failure f => (f.message ++ "\n", 1)

/-- Runs the session for the words of a command line. -/
def run (words : List String) : IO UInt32 := do
  let tree ← readTree
  let outcome := SessionOutcome.ofWords (← readWorld) words tree
  for item in Notice.printed outcome.shown do
    for line in item.plainLines do
      IO.println line
  writeChanges tree outcome.tree
  let (errors, code) := farewell outcome.ending
  IO.eprint errors
  return code

end Command

end BroadcastIntake

/-- Runs the command. -/
def main (words : List String) : IO UInt32 :=
  BroadcastIntake.Command.run words
