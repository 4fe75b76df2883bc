import BroadcastIntake.Schema.Scalar

/-!
# Results of jobs

A job goes through states and ends done or failed.  Its result says what came of it, and keeps the
states it went through.
-/

namespace BroadcastIntake

/-- The states of a job. -/
inductive JobState where
  | idle
  | probing
  | buildingFilters
  | transcoding
  /-- Nothing is to be changed, so the file is copied. -/
  | directCopy
  /-- The transcode failed, so the source is copied. -/
  | fallbackCopy
  | done
  | failed
  deriving DecidableEq, Repr

namespace JobState

def name : JobState → String
  | idle => "idle"
  | probing => "probing"
  | buildingFilters => "building_filters"
  | transcoding => "transcoding"
  | directCopy => "direct_copy"
  | fallbackCopy => "fallback_copy"
  | done => "done"
  | failed => "failed"

def all : List JobState :=
  [idle, probing, buildingFilters, transcoding, directCopy, fallbackCopy, done, failed]

def ofName? (name : String) : Option JobState :=
  all.find? fun state => state.name = name

def isTerminal (state : JobState) : Bool :=
  state = done || state = failed

def check : Json → Checked JobState
  | .str name =>
    match ofName? name with
    | some state => .valid state
    | none => .issue .notListed
  | _ => .issue .notListed

def checkTerminal (value : Json) : Checked JobState :=
  (check value).andThen fun state =>
    if state.isTerminal then .valid state
    else .issue (.rule "Result state must be terminal (done or failed)")

end JobState

/-- What came of a job.  The durations are those of a transcode, in seconds. -/
structure JobResult where
  success : Bool
  output : Option Path
  error : Option String
  sourceDuration : Binary64
  processedDuration : Binary64
  usedFallback : Bool
  transcoded : Bool
  state : JobState
  warnings : List String
  history : List JobState
  deriving DecidableEq, Repr

namespace JobResult

/-- The result of a job that went through `history` before it failed. -/
def failure (history : List JobState) (warnings : List String) (error : String) : JobResult :=
  { success := false, output := none, error := some error, sourceDuration := .zero,
    processedDuration := .zero, usedFallback := false, transcoded := false, state := .failed,
    warnings, history := history ++ [.failed] }

/-- The result of a job that failed before any work on its file. -/
def refused (error : String) : JobResult :=
  failure [.idle] [] error

/-- The result of a job that went through `history` and copied its file. -/
def copied (history : List JobState) (warnings : List String) (output : Path) : JobResult :=
  { success := true, output := some output, error := none, sourceDuration := .zero,
    processedDuration := .zero, usedFallback := false, transcoded := false, state := .done,
    warnings, history := history ++ [.done] }

/-- Checks how long a job took: a number that is not negative. -/
def checkElapsed (value : Json) : Checked (Option Binary64) :=
  (Scalar.orNull Scalar.number value).andThen fun elapsed? =>
    if elapsed?.any (· < 0) then .issue (.rule "Processing time must be non-negative")
    else .valid elapsed?

/-- Checks the record of a result.  How long the job took is checked and not kept. -/
def check : Json → Checked JobResult :=
  checkRecord fun members =>
    (fun success output error sourced processed fallback transcoded state warnings history _ =>
        JobResult.mk success output error sourced processed fallback transcoded state warnings
          history)
      <$> members.required "success" Scalar.flag
      <*> members.optional "output_path" none (Scalar.orNull Scalar.path)
      <*> members.optional "error" none (Scalar.orNull Scalar.text)
      <*> members.optional "original_duration" .zero Scalar.number
      <*> members.optional "processed_duration" .zero Scalar.number
      <*> members.optional "used_fallback" false Scalar.flag
      <*> members.optional "transcoded" false Scalar.flag
      <*> members.optional "state" .done JobState.checkTerminal
      <*> members.optional "warnings" [] (Scalar.list Scalar.text)
      <*> members.optional "history" [] (Scalar.list JobState.check)
      <*> members.optional "processing_time" none checkElapsed

def toJson (r : JobResult) : Json :=
  .object [("success", .bool r.success),
    ("output_path", .ofOption (fun path => .str path.toString) r.output),
    ("error", .ofOption .str r.error), ("original_duration", .float r.sourceDuration),
    ("processed_duration", .float r.processedDuration), ("used_fallback", .bool r.usedFallback),
    ("transcoded", .bool r.transcoded), ("state", .str r.state.name),
    ("warnings", .ofTexts r.warnings), ("history", .ofTexts (r.history.map JobState.name))]

end JobResult

end BroadcastIntake
