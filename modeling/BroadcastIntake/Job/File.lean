import BroadcastIntake.Job.Machine
import BroadcastIntake.Plan

/-!
# Jobs for files of a show

From a file of a show to a job for it: the file is checked, planned, and its output path reserved,
all in one step, so that no two jobs are given the same path.  What is wrong with the file becomes
a failed result.  However the job ends, no output file stays behind unless it succeeded.
-/

namespace BroadcastIntake

/-- What is the same for all files of a show: the profile, the settings, the directory that is
asked for the output, and the date of today. -/
structure ShowContext where
  profile : ShowProfile
  settings : Settings
  outputDirectory : Option Path
  today : BroadcastDate
  deriving DecidableEq, Repr

/-- The context of a show that says nothing but its name, when nothing is set or asked for. -/
def ShowContext.named (name : String) : ShowContext :=
  { profile := .named name, settings := .standard, outputDirectory := none, today := .first }

namespace FileJob

open Job (logger)

/-- Why a file of a show is not worked on. -/
inductive Refusal where
  | unsupportedExtension (extension : String)
  | fault (fault : CopyFault)
  deriving DecidableEq, Repr

def Refusal.message : Refusal → String
  | unsupportedExtension extension => s!"Unsupported file extension: {extension}"
  | fault f => f.message

/-- How preparing a job can fail. -/
inductive PrepareError where
  | refused (refusal : Refusal)
  | crash (crash : Crash)
  deriving DecidableEq, Repr

/-- Checks that a file is there and has an extension that is taken. -/
def checkSource (c : ShowContext) (source : Path) (tree : FileTree) : Except PrepareError Unit :=
  let extension := Text.lower source.suffix
  if !c.settings.extensions.contains extension then
    .error (.refused (.unsupportedExtension extension))
  else
    match tree.isFile source with
    | .ok true => .ok ()
    | .ok false => .error (.refused (.fault (.sourceMissing source)))
    | .error e => .error (.crash (.file e))

/-- The job for a plan whose output path has been reserved as `output`. -/
def ofPlan (c : ShowContext) (plan : Plan) (output : Path) : Job :=
  { source := plan.source
    output
    options := plan.options
    transcodes := plan.needsProcessing
    fadeIn := c.settings.fadeIn
    fadeOut := c.settings.fadeOut }

def reserve (c : ShowContext) (source : Path) (tree : FileTree) :
    Logged (FileTree × Except PrepareError Job) := do
  match ← Plan.ofFile source c.profile c.settings c.outputDirectory c.today with
  | .error crash => return (tree, .error (.crash crash))
  | .ok plan =>
    match ← OutputFile.reserve tree plan.output with
    | (reserved, .ok output) => return (reserved, .ok (ofPlan c plan output))
    | (reserved, .error (.fault fault)) => return (reserved, .error (.refused (.fault fault)))
    | (reserved, .error (.crash crash)) => return (reserved, .error (.crash crash))

def prepare (c : ShowContext) (source : Path) (tree : FileTree) :
    Logged (FileTree × Except PrepareError Job) :=
  match checkSource c source tree with
  | .error e => return (tree, .error e)
  | .ok () => reserve c source tree

/-- The first step for a file: the job waits for the prober, or has ended already. -/
def start (c : ShowContext) (source : Path) (tree : FileTree) : StepOutcome := do
  Logged.tell .info logger s!"Starting to process file: {source.name}"
  match ← prepare c source tree with
  | (prepared, .ok job) => return (prepared, .waits (← job.start))
  | (prepared, .error (.refused refusal)) =>
    Logged.tell .error logger s!"Failed to process file {source.name}: {refusal.message}"
    return (prepared, .ended (.finished (JobResult.refused refusal.message)))
  | (prepared, .error (.crash crash)) => return (prepared, .ended (.crashed crash))

/-- What is left to do for a file when its job has ended: unless it succeeded, its output is
removed. -/
def settle (job : Job) (tree : FileTree) (ending : JobEnd) : Logged FileTree :=
  match ending with
  | .finished result =>
    if result.success then do
      let output := (result.output.map Path.toString).getD "None"
      Logged.tell .info logger s!"File successfully processed: {job.source.name} -> {output}"
      return tree
    else OutputFile.removePartial tree job.output
  | .cancelled | .crashed _ => OutputFile.removePartial tree job.output

def step (w : WaitingJob) (event : JobEvent) (tree : FileTree) : StepOutcome := do
  match ← w.step event tree with
  | (changed, .waits next) => return (changed, .waits next)
  | (changed, .ended ending) => return (← settle w.job changed ending, .ended ending)

end FileJob

end BroadcastIntake
