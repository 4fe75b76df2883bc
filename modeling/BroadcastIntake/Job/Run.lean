import BroadcastIntake.Job.File

/-!
# Running jobs

Runs a job to its end with tools and a copier whose conduct is given.  A job that waits for
something that never comes is cancelled when that is asked for, and is left waiting otherwise.
-/

namespace BroadcastIntake

/-- What a copier does in place of a plain copy: it may write something to the destination, it may
not end before the job is cancelled, and it fails or copies after all. -/
structure CopierConduct where
  writes : Option ByteArray
  isSlow : Bool
  failure : Option CopyError

/-- What a job meets: a prober and a transcoder, the conduct of the tools behind them, and the
conduct of the copier, when it is not a plain one. -/
structure Surroundings where
  prober : Prober
  transcoder : Transcoder
  tools : Toolbox
  copier : Option CopierConduct

/-- What comes of what a job waits for: the tree that is left, the event, if any comes, and the
calls of tools. -/
structure Reply where
  tree : FileTree
  event : Option JobEvent
  calls : List ToolCall

namespace Surroundings

def ofSettings (settings : Settings) (tools : Toolbox) : Surroundings :=
  { prober := ⟨settings.prober, some settings.probeTimeout, settings.assumedDuration⟩
    transcoder := ⟨settings.transcoder, some settings.transcodeTimeout⟩
    tools
    copier := none }

def probe (s : Surroundings) (tree : FileTree) (path : Path) :
    Logged (FileTree × Option (Except Crash ProbeInfo) × ToolCall) :=
  let call := s.prober.call path
  match (s.tools call).perform call tree with
  | (changed, none) => return (changed, none, call)
  | (changed, some ending) => do
    return (changed, some (← s.prober.judge path ending), call)

def replyProbe (s : Surroundings) (w : WaitingJob) (tree : FileTree) : Logged Reply := do
  let (changed, outcome, call) ← s.probe tree w.job.source
  return ⟨changed, outcome.map .probed, [call]⟩

def replyTranscode (s : Surroundings) (w : WaitingJob) (chain : FilterChain) (tree : FileTree) :
    Logged Reply := do
  let call := s.transcoder.call w.job.source w.job.output chain
  Transcoder.announce call
  let (changed, ending) := (s.tools call).perform call tree
  return ⟨changed, ending.map fun e => .transcoded (s.transcoder.judge e), [call]⟩

def writePartial (c : CopierConduct) (destination : Path) (tree : FileTree) :
    Except CopyError FileTree :=
  match c.writes with
  | none => .ok tree
  | some content =>
    match tree.write destination content with
    | .ok written => .ok written
    | .error e => .error (OutputFile.faultOr e fun e => .refused e.message)

def endCopy (s : Surroundings) (w : WaitingJob) (tree : FileTree) : Logged Reply :=
  match s.copier.bind (·.failure) with
  | some failure => return ⟨tree, some (.copied (.error failure)), []⟩
  | none => do
    let (copied, outcome) ← OutputFile.copy tree w.job.source w.job.output
    return ⟨copied, some (.copied outcome), []⟩

/-- The copier is at work for a job. -/
def replyCopy (s : Surroundings) (w : WaitingJob) (tree : FileTree) : Logged Reply :=
  match s.copier with
  | none => s.endCopy w tree
  | some c =>
    match writePartial c w.job.output tree with
    | .error failure => return ⟨tree, some (.copied (.error failure)), []⟩
    | .ok written => if c.isSlow then return ⟨written, none, []⟩ else s.endCopy w written

def reply (s : Surroundings) (w : WaitingJob) (tree : FileTree) : Logged Reply :=
  match w.stage with
  | .probing => s.replyProbe w tree
  | .transcoding _ chain => s.replyTranscode w chain tree
  | .copying _ => s.replyCopy w tree
  | .abandoning => s.endCopy w tree

end Surroundings

/-- The outcome of running a job: how it ended, unless it waits for ever, the tree that is left,
and the calls of tools in order. -/
structure JobRun where
  ending : Option JobEnd
  tree : FileTree
  calls : List ToolCall

namespace JobRun

abbrev Stepper := WaitingJob → JobEvent → FileTree → StepOutcome

/-- What comes of everything that a job may wait for, and of the tree that it waits in. -/
abbrev Replier := WaitingJob → FileTree → Logged Reply

/-- How many steps a job takes at most: after the probe, the transcode and the copy, or after a
cancelled copy. -/
def stepLimit : Nat := 4

/-- Runs a job for at most the given number of steps. -/
def runFor (reply : Replier) (step : Stepper) (cancels : Bool) :
    Nat → JobProgress → FileTree → List ToolCall → Logged JobRun
  | _, .ended ending, tree, calls => return ⟨some ending, tree, calls⟩
  | 0, .waits _, tree, calls => return ⟨none, tree, calls⟩
  | n + 1, .waits w, tree, calls => do
    let r ← reply w tree
    let calls := calls ++ r.calls
    match r.event with
    | some event =>
      let (changed, progress) ← step w event r.tree
      runFor reply step cancels n progress changed calls
    | none =>
      if cancels then
        let (changed, progress) ← step w .cancelled r.tree
        runFor reply step cancels n progress changed calls
      else return ⟨none, r.tree, calls⟩

@[simp] theorem runFor_ended (reply : Replier) (step : Stepper) (cancels : Bool) (n : Nat)
    (ending : JobEnd) (tree : FileTree) (calls : List ToolCall) :
    (runFor reply step cancels n (.ended ending) tree calls).value =
      ⟨some ending, tree, calls⟩ := by
  cases n <;> rfl

/-- Runs a job on its own, whatever works for it. -/
def withReplies (reply : Replier) (cancels : Bool) (job : Job) (tree : FileTree) :
    Logged JobRun := do
  runFor reply WaitingJob.step cancels stepLimit (.waits (← job.start)) tree []

/-- Runs a job on its own. -/
def ofJob (s : Surroundings) (cancels : Bool) (job : Job) (tree : FileTree) : Logged JobRun :=
  withReplies s.reply cancels job tree

def ofFile (s : Surroundings) (cancels : Bool) (c : ShowContext) (source : Path)
    (tree : FileTree) : Logged JobRun := do
  let (prepared, progress) ← FileJob.start c source tree
  runFor s.reply FileJob.step cancels stepLimit progress prepared []

end JobRun

end BroadcastIntake
