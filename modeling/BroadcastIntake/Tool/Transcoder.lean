import BroadcastIntake.Crash
import BroadcastIntake.FilterChain
import BroadcastIntake.Tool.Prober

/-!
# The transcoder

The transcoder makes one recording out of another.  Its failures are told apart by their cause;
whether it is there at all can be asked by a call for its version.
-/

namespace BroadcastIntake

/-- A transcoder: its program and its time limit. -/
structure Transcoder where
  program : String
  limit : Option Binary64
  deriving DecidableEq, Repr

/-- Why a recording was not transcoded. -/
inductive TranscodeFault where
  | timedOut (limit : Option Binary64)
  | notStarted (reason : String)
  /-- The transcoder ended with a code other than zero. -/
  | failed (code : Int) (errors : String)
  /-- A transcoder of another kind gives a reason of its own. -/
  | refused (reason : String)
  deriving DecidableEq, Repr

namespace TranscodeFault

def message : TranscodeFault → String
  | timedOut limit => s!"FFmpeg timed out after {limitText limit}s"
  | notStarted reason => s!"FFmpeg error: {reason}"
  | failed code errors => s!"FFmpeg failed with code {intText code}: {errorTail errors}"
  | refused reason => reason

/-- The code with which the transcoder ended, if it did. -/
def code? : TranscodeFault → Option Int
  | failed code _ => some code
  | _ => none

def errors : TranscodeFault → String
  | failed _ errors => errors
  | _ => ""

end TranscodeFault

/-- How a transcode can fail: with a fault or with a crash. -/
inductive TranscodeError where
  | fault (fault : TranscodeFault)
  | crash (crash : Crash)
  deriving DecidableEq, Repr

namespace Transcoder

/-- The transcoder that is used unless another one is asked for. -/
def standard : Transcoder := ⟨"ffmpeg", some 3600⟩

def call (t : Transcoder) (input output : Path) (chain : FilterChain) : ToolCall :=
  ⟨chain.command t.program input output, t.limit⟩

def announce (call : ToolCall) : Logged Unit :=
  Logged.tell .debug toolLogger ("FFmpeg command: " ++ String.intercalate " " call.command)

/-- Whether the transcoder has done its work when it has ended. -/
def judge (t : Transcoder) : ToolEnding → Except TranscodeError Unit
  | .timedOut => .error (.fault (.timedOut t.limit))
  | .notStarted reason => .error (.fault (.notStarted reason))
  | .broken reason => .error (.crash (.broken reason))
  | .exited code _ errors => if code = 0 then .ok () else .error (.fault (.failed code errors))

/-! ## Availability -/

/-- How many seconds the call for the version may take. -/
def versionLimit : Binary64 := 10

def versionCall (program : String) : ToolCall :=
  ⟨[program, "-version"], some versionLimit⟩

/-- Whether a transcoder is there, by how it ended after it was asked for its version. -/
def isAvailable : ToolEnding → Except Crash Bool
  | .exited code _ _ => .ok (code = 0)
  | .timedOut | .notStarted _ => .ok false
  | .broken reason => .error (.broken reason)

end Transcoder

end BroadcastIntake
