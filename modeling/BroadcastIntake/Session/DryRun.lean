import BroadcastIntake.FileSize
import BroadcastIntake.Job.Run
import BroadcastIntake.Session.Basic

/-!
# Dry runs

A dry run prints the plan of every file and works on none.  Only when details are asked for, files
that would be transcoded are probed, so that the whole command can be shown.
-/

namespace BroadcastIntake

namespace Session

def probe (w : World) (settings : Settings) (file : Path) : Session ProbeInfo := do
  let (outcome, call) ← working w fun tree =>
    (Surroundings.ofSettings settings w.tools).probe tree file
  noteCalls [call]
  match outcome with
  | some info => orFail .crash info
  | none => fail .stuck

/-- The command for a plan.  The warnings of its filters are printed. -/
def commandFor (w : World) (settings : Settings) (plan : Plan) : Session (List String) := do
  let info ← probe w settings plan.source
  let (chain, command) ← told w (plan.describe settings info)
  printAll ((chain.elim [] (·.warnings)).map ConsoleItem.warning)
  return command

/-- The size of a directory, as file systems tell it. -/
def directorySize : Nat := 4096

def sizeText (tree : FileTree) (path : Path) : Except FileError String :=
  match tree.stat? path with
  | .ok (some (.file content)) => .ok (FileSize.ofContent content)
  | .ok (some .directory) => .ok (FileSize.text (.ofRatio false directorySize 1))
  | .ok none => .error ⟨.missing, path.toString⟩
  | .error e => .error e

/-- Prints the plan of one file. -/
def dryRunFile (w : World) (c : ShowContext) (isDebug : Bool) (file : Path) : Session Unit := do
  print (.fileHeading file.toString)
  let planned ← told w (Plan.ofFile file c.profile c.settings c.outputDirectory c.today)
  let plan ← orFail .crash planned
  let command ←
    if isDebug && plan.needsProcessing then commandFor w c.settings plan else pure []
  printAll (plan.shown command)
  let size ← orFail .file (sizeText (← tree) file)
  print (.info s!"Size: {size}")

/-- Prints the plans of files, one after the other. -/
def dryRunFiles (w : World) (c : ShowContext) (isDebug : Bool) : List Path → Session Unit
  | [] => return
  | file :: rest => do
    dryRunFile w c isDebug file
    dryRunFiles w c isDebug rest

/-- Prints the plans of all files and their number. -/
def dryRun (w : World) (c : ShowContext) (isDebug : Bool) (files : List Path) :
    Session Unit := do
  dryRunFiles w c isDebug files
  print (.skipped s!"Dry run: {files.length} files planned, nothing written")

end Session

end BroadcastIntake
