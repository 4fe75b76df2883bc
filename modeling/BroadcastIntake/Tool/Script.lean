import BroadcastIntake.Tool.Basic

/-!
# Tool scripts

A script fixes beforehand how every tool conducts itself: the prober and the transcoder for each
file by its name, and the transcoder when it is asked for its version.  A tool that the script says
nothing about is not there.
-/

namespace BroadcastIntake

/-- Conducts by the name of the file that a tool works on. -/
abbrev ConductTable := List (String × ToolConduct)

/-- How the tools conduct themselves. -/
structure ToolScript where
  probe : ConductTable
  transcode : ConductTable
  version : Option ToolConduct

namespace ToolScript

/-- The name that stands for every file without an entry of its own. -/
def anyName : String := "*"

def find? (table : ConductTable) (name : String) : Option ToolConduct :=
  (table.lookup name).or (table.lookup anyName)

/-- The last part of a word that names a file. -/
def baseName (word : String) : String :=
  (Path.ofString word).name

/-- The word after `-i`, which names the file that the transcoder reads. -/
def inputWord (command : List String) : String :=
  ((command.dropWhile (· ≠ "-i")).drop 1).headD ""

def conduct? (s : ToolScript) (call : ToolCall) : Option ToolConduct :=
  let last := call.command.getLast?.getD ""
  if last = "-version" then s.version
  else if call.command.contains "-print_format" then find? s.probe (baseName last)
  else find? s.transcode (baseName (inputWord call.command))

def toolbox (s : ToolScript) : Toolbox := fun call =>
  (s.conduct? call).getD (ToolConduct.absent call)

end ToolScript

end BroadcastIntake
