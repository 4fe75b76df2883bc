import BroadcastIntake.Job.Result
import BroadcastIntake.OutputFile
import BroadcastIntake.Tool.Transcoder

/-!
# The job machine

A job makes one output file out of one source file.  It waits three times at most: for the prober,
for the transcoder, and for a copy.  What it does between two waits is one step, which nothing
interrupts; so the machine is a function from what it waited for, and the file tree it finds, to
what it waits for next and the tree it leaves.

* Probing never fails a job.
* A job of which no change is asked copies its source.
* A transcode that fails is cleaned up and followed by a copy of the source.
* A copy that fails ends the job as failed.

A job may be cancelled while it waits.  Cancelled while copying, it waits for the copy to end
before it cleans up, because a copy cannot be stopped.
-/

namespace BroadcastIntake

/-- The work on one file: what is made into what, and how.  Fades are in seconds. -/
structure Job where
  source : Path
  output : Path
  options : ProcessingOptions
  /-- Whether the source is transcoded, and not just copied. -/
  transcodes : Bool
  fadeIn : Binary64
  fadeOut : Binary64
  deriving DecidableEq, Repr

/-- What a job waits for. -/
inductive JobStage where
  | probing
  | transcoding (probe : ProbeInfo) (chain : FilterChain)
  /-- The copy of the source; with the failure of the transcode, if there was one. -/
  | copying (failure : Option String)
  /-- The end of a copy after the job was cancelled. -/
  | abandoning
  deriving DecidableEq, Repr

namespace JobStage

/-- Whether a copier is at work for the job. -/
def isCopying : JobStage → Bool
  | copying _ | abandoning => true
  | probing | transcoding _ _ => false

/-- Whether a tool or copier may write to the output of the job. -/
def isWriting : JobStage → Bool
  | probing => false
  | transcoding _ _ | copying _ | abandoning => true

end JobStage

/-- A job that waits, with the warnings and the states up to here. -/
structure WaitingJob where
  job : Job
  stage : JobStage
  warnings : List String
  history : List JobState
  deriving DecidableEq, Repr

/-- What can come of a wait. -/
inductive JobEvent where
  | probed (outcome : Except Crash ProbeInfo)
  | transcoded (outcome : Except TranscodeError Unit)
  | copied (outcome : Except CopyError Unit)
  | cancelled

/-- How a job ends. -/
inductive JobEnd where
  | finished (result : JobResult)
  | cancelled
  | crashed (crash : Crash)
  deriving DecidableEq, Repr

/-- A job after a step: it waits again or has ended. -/
inductive JobProgress where
  | waits (waiting : WaitingJob)
  | ended (ending : JobEnd)
  deriving DecidableEq, Repr

/-- What a step does: it leaves a tree and the job in some progress, and tells records. -/
abbrev StepOutcome := Logged (FileTree × JobProgress)

namespace Job

def logger : String := "radio_ingest.processor"

/-- What stands in the error of a result when the source was copied in place of a transcode. -/
def fallbackMarker : String := "used copy fallback"

/-- The job that makes one file into another.  Unless it is asked for or against, the options
decide whether the source is transcoded. -/
def ofOptions (source output : Path) (options : ProcessingOptions) (asked : Option Bool)
    (fadeIn fadeOut : Binary64) : Job :=
  { source, output, options, fadeIn, fadeOut
    transcodes := asked.getD options.needsProcessing }

def start (job : Job) : Logged WaitingJob := do
  Logged.tell .info logger s!"Starting audio processing: {job.source.name}"
  return ⟨job, .probing, [], [.idle, .probing]⟩

end Job

namespace WaitingJob

open Job (logger)

def sourceName (w : WaitingJob) : String :=
  w.job.source.name

def finish (tree : FileTree) (ending : JobEnd) : FileTree × JobProgress :=
  (tree, .ended ending)

def goOn (w : WaitingJob) (tree : FileTree) (state : JobState) (stage : JobStage) :
    FileTree × JobProgress :=
  (tree, .waits { w with stage, history := w.history ++ [state] })

/-! ## After the transcode -/

/-- The transcode failed: what it wrote is removed, and the source is copied in its place. -/
def fallBack (w : WaitingJob) (tree : FileTree) (failure : String) : StepOutcome := do
  Logged.tell .error logger s!"Audio processing failed for {w.sourceName}: {failure}"
  let cleaned ← OutputFile.removePartial tree w.job.output
  return w.goOn cleaned .fallbackCopy (.copying (some failure))

def transcodeResult (w : WaitingJob) (probe : ProbeInfo) (chain : FilterChain) : JobResult :=
  { JobResult.copied w.history w.warnings w.job.output with
    transcoded := true
    sourceDuration := probe.duration
    processedDuration := chain.outputDuration }

/-- The step after the transcoder has ended. -/
def afterTranscode (w : WaitingJob) (tree : FileTree) (probe : ProbeInfo) (chain : FilterChain) :
    Except TranscodeError Unit → StepOutcome
  | .ok () => do
    Logged.tell .info logger s!"Audio processing completed: {w.job.output.name}"
    return finish tree (.finished (w.transcodeResult probe chain))
  | .error (.fault fault) => w.fallBack tree fault.message
  | .error (.crash crash) => return finish tree (.crashed crash)

/-! ## After the probe -/

def assumptionWarnings (probe : ProbeInfo) : List String :=
  if probe.isAssumed then
    [s!"Probe unavailable, assumed {probe.duration.text}s duration"]
  else []

/-- The job is to transcode: the filters are built and the directories above the output made. -/
def beginTranscode (w : WaitingJob) (tree : FileTree) (probe : ProbeInfo) : StepOutcome := do
  let chain ← FilterChain.build w.job.options probe w.job.fadeIn w.job.fadeOut w.sourceName
  let w : WaitingJob :=
    { w with
      warnings := w.warnings ++ chain.warnings
      history := w.history ++ [.buildingFilters] }
  match tree.makeDirectories w.job.output.parent with
  | (made, none) => return w.goOn made .transcoding (.transcoding probe chain)
  | (made, some e) =>
    if e.fault.isSystem then
      fallBack { w with history := w.history ++ [.transcoding] } made e.message
    else return finish made (.crashed (.file e))

def afterProbe (w : WaitingJob) (tree : FileTree) (probe : ProbeInfo) : StepOutcome := do
  let w : WaitingJob := { w with warnings := w.warnings ++ assumptionWarnings probe }
  if w.job.transcodes then w.beginTranscode tree probe
  else
    Logged.tell .info logger s!"No audio processing needed, copying {w.sourceName}"
    return w.goOn tree .directCopy (.copying none)

/-! ## After the copy -/

/-- The result of a copy; the failure is that of the transcode before it. -/
def copyResult (w : WaitingJob) : Option String → JobResult
  | none => JobResult.copied w.history w.warnings w.job.output
  | some failure =>
    { JobResult.copied w.history w.warnings w.job.output with
      usedFallback := true
      error := some s!"Audio processing failed ({failure}), {Job.fallbackMarker}" }

/-- What a failed copy is called. -/
def copyName : Option String → String
  | none => "Copy"
  | some _ => "Fallback copy"

/-- The step after a copy has ended. -/
def afterCopy (w : WaitingJob) (tree : FileTree) (failure : Option String) :
    Except CopyError Unit → StepOutcome
  | .ok () => do
    if failure.isSome then
      Logged.tell .warning logger
        s!"Audio processing failed, used file copy as fallback for {w.sourceName}"
    return finish tree (.finished (w.copyResult failure))
  | .error (.fault fault) => do
    Logged.tell .error logger
      s!"{copyName failure} failed for {w.sourceName}: {fault.message}"
    return finish tree (.finished (JobResult.failure w.history w.warnings fault.message))
  | .error (.crash crash) => return finish tree (.crashed crash)

/-! ## Steps -/

/-- The job is cancelled and what was written is removed. -/
def abandon (w : WaitingJob) (tree : FileTree) : StepOutcome := do
  return finish (← OutputFile.removePartial tree w.job.output) .cancelled

/-- The step that an event leads to.  An event that the job does not wait for changes nothing. -/
def step (w : WaitingJob) (event : JobEvent) (tree : FileTree) : StepOutcome :=
  match w.stage, event with
  | .probing, .probed (.ok probe) => w.afterProbe tree probe
  | .probing, .probed (.error crash) => return finish tree (.crashed crash)
  | .probing, .cancelled => return finish tree .cancelled
  | .transcoding probe chain, .transcoded outcome => w.afterTranscode tree probe chain outcome
  | .transcoding _ _, .cancelled => w.abandon tree
  | .copying failure, .copied outcome => w.afterCopy tree failure outcome
  | .copying _, .cancelled => return (tree, .waits { w with stage := .abandoning })
  | .abandoning, .copied _ => w.abandon tree
  | .abandoning, .cancelled => return finish tree .cancelled
  | _, _ => return (tree, .waits w)

end WaitingJob

end BroadcastIntake
