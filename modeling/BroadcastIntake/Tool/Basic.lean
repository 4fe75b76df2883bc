import BroadcastIntake.FileTree
import BroadcastIntake.Json.Basic
import BroadcastIntake.Number.Text
import BroadcastIntake.Text.Blank

/-!
# Tools

The intake has other programs at work for it: a prober that looks at a recording and a transcoder
that changes it.  A call of a tool is its command with a limit on its time.  What a tool does is
its conduct: it may write one file, and then it ends in one of four ways or never.

A `Toolbox` says how the tool behind each call conducts itself, so everything that is stated of all
toolboxes holds whatever the tools do.
-/

namespace BroadcastIntake

/-- A call of a tool: its command and how many seconds it may take. -/
structure ToolCall where
  command : List String
  limit : Option Binary64
  deriving DecidableEq, Repr

/-- How a tool ends. -/
inductive ToolEnding where
  /-- It ends by itself, with a code and with what it printed. -/
  | exited (code : Int) (output errors : String)
  /-- It is stopped at its time limit. -/
  | timedOut
  /-- It cannot be started. -/
  | notStarted (reason : String)
  /-- The call itself breaks down. -/
  | broken (reason : String)
  deriving DecidableEq, Repr

/-- What a tool does: it writes a file, or not, and ends, or not. -/
structure ToolConduct where
  writes : Option ByteArray
  ending : Option ToolEnding

/-- The conduct of the tools, for each call. -/
abbrev Toolbox := ToolCall → ToolConduct

namespace ToolCall

/-- The file that a tool writes to is named by the last word of its command. -/
def outputFile (call : ToolCall) : Path :=
  Path.ofString (call.command.getLast?.getD "")

def toJson (call : ToolCall) : Json :=
  .object [("cmd", .ofTexts call.command), ("timeout", .ofOption .float call.limit)]

end ToolCall

namespace ToolConduct

def absent (call : ToolCall) : ToolConduct :=
  let program := call.command.headD ""
  ⟨none, some (.notStarted (FileError.message ⟨.missing, program⟩))⟩

def toolless : Toolbox := fun call => absent call

/-- What a tool leaves behind and how it ends.  A tool that cannot write its file counts as not
started. -/
def perform (conduct : ToolConduct) (call : ToolCall) (tree : FileTree) :
    FileTree × Option ToolEnding :=
  match conduct.writes with
  | none => (tree, conduct.ending)
  | some content =>
    match tree.write call.outputFile content with
    | .ok written => (written, conduct.ending)
    | .error e => (tree, some (.notStarted e.message))

end ToolConduct

def limitText (limit : Option Binary64) : String :=
  match limit with
  | some seconds => seconds.text
  | none => "None"

/-- How many characters at the end of a tool's errors are told. -/
def errorTailLength : Nat := 2000

/-- The end of a tool's errors, without blanks around them. -/
def errorTail (errors : String) : String :=
  Text.takeLast errorTailLength (Text.trim errors)

end BroadcastIntake
