import BroadcastIntake.Crash
import BroadcastIntake.Log
import BroadcastIntake.Tool.Basic

/-!
# The prober

The prober tells how long a recording is.  When it fails in one of the expected ways, a duration is
assumed instead and a warning says why, so a missing prober keeps no file from being worked on.
-/

namespace BroadcastIntake

def toolLogger : String := "radio_ingest.ffmpeg_runner"

/-- A prober: its program, its time limit, and the duration that is assumed when it fails. -/
structure Prober where
  program : String
  limit : Option Binary64
  assumedDuration : Binary64
  deriving DecidableEq, Repr

namespace Prober

/-- The prober that is used unless another one is asked for. -/
def standard : Prober := ⟨"ffprobe", some 30, 300⟩

def call (p : Prober) (path : Path) : ToolCall :=
  { command := [p.program, "-v", "quiet", "-print_format", "json", "-show_format",
      "-show_streams", "-select_streams", "a:0", path.toString]
    limit := p.limit }

/-- What is assumed about a file that cannot be probed for the given reason. -/
def assume (p : Prober) (path : Path) (reason : String) : Logged ProbeInfo := do
  Logged.tell .warning toolLogger
    (s!"ffprobe unavailable for {path} ({reason}), " ++
      s!"assuming {p.assumedDuration.text}s duration")
  return ProbeInfo.assumed p.assumedDuration

/-- What a report says about a file; a faulty report counts as a failure of the prober. -/
def readReport (p : Prober) (path : Path) (report : String) :
    Logged (Except Crash ProbeInfo) :=
  match ProbeInfo.ofReport report with
  | .ok info => do
    Logged.tell .debug toolLogger
      (s!"Audio info for {path}: duration={info.duration.text}, " ++
        s!"streams={intText info.streamCount}, format={info.format.getD noneText}")
    return .ok info
  | .error (.fault f) => return .ok (← p.assume path f.message)
  | .error e => return .error (.report e)
where
  /-- How an unknown format is told. -/
  noneText : String := "None"

/-- What is known about a file after the prober has ended. -/
def judge (p : Prober) (path : Path) : ToolEnding → Logged (Except Crash ProbeInfo)
  | .timedOut => return .ok (← p.assume path s!"timed out after {limitText p.limit}s")
  | .notStarted reason => return .ok (← p.assume path reason)
  | .broken reason => return .error (.broken reason)
  | .exited code output errors =>
    if code = 0 then p.readReport path output
    else return .ok (← p.assume path s!"exit code {intText code}: {errorTail errors}")

end Prober

end BroadcastIntake
