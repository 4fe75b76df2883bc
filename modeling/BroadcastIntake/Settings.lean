import BroadcastIntake.EnvironmentFile
import BroadcastIntake.FileTree
import BroadcastIntake.Log
import BroadcastIntake.Schema.Scalar
import BroadcastIntake.Text.Case

/-!
# Settings

The settings of a run: where the tools are, how long they may take, what is assumed and what is
allowed.  Each setting is taken from the first source that has it: an override by its name, the
environment, the environment file, and else its own value.  Names in the environment and in the
file start with `RADIO_` and are read in any letter case.
-/

namespace BroadcastIntake

/-- The settings of a run; times are in seconds. -/
structure Settings where
  transcoder : String
  prober : String
  probeTimeout : Binary64
  transcodeTimeout : Binary64
  assumedDuration : Binary64
  fadeIn : Binary64
  fadeOut : Binary64
  allowedExtensions : String
  outputBase : Path
  maxJobs : Int
  logLevel : LogLevel
  logFile : Option Path
  deriving DecidableEq, Repr

namespace Settings

/-- The settings of a run for which nothing is set. -/
def standard : Settings :=
  { transcoder := "ffmpeg", prober := "ffprobe", probeTimeout := 30, transcodeTimeout := 3600,
    assumedDuration := 300, fadeIn := 0.5, fadeOut := 0.5,
    allowedExtensions := ".mp3,.wav,.flac,.aac,.m4a", outputBase := ⟨0, ["Output"]⟩, maxJobs := 2,
    logLevel := .info, logFile := none }

/-- The suffixes of the files that are taken, each with its dot, in small letters. -/
def extensions (s : Settings) : List String :=
  (Text.splitOnChar ',' s.allowedExtensions).filterMap fun piece =>
    let suffix := Text.lower (Text.trim piece)
    if suffix = "" then none
    else if suffix.toList.head? = some '.' then some suffix
    else some ("." ++ suffix)

/-- Checks the name of a log level, in any letter case. -/
def checkLogLevel (value : Json) : Checked LogLevel :=
  (Scalar.text value).andThen fun name =>
    match LogLevel.ofName? (Text.upper name) with
    | some level => .valid level
    | none =>
      .issue (.rule "Log level must be one of: DEBUG, INFO, WARNING, ERROR, CRITICAL")

/-- Checks settings that were collected from all sources. -/
def checkMembers (members : Members) : Checked Settings :=
  Settings.mk
    <$> members.optional "ffmpeg_path" "ffmpeg" Scalar.text
    <*> members.optional "ffprobe_path" "ffprobe" Scalar.text
    <*> members.optional "probe_timeout" 30 (Scalar.numberAbove 0)
    <*> members.optional "transcode_timeout" 3600 (Scalar.numberAbove 0)
    <*> members.optional "fallback_duration" 300 (Scalar.numberAbove 0)
    <*> members.optional "fade_in_seconds" 0.5 (Scalar.numberAtLeast 0)
    <*> members.optional "fade_out_seconds" 0.5 (Scalar.numberAtLeast 0)
    <*> members.optional "allowed_extensions" ".mp3,.wav,.flac,.aac,.m4a" Scalar.text
    <*> members.optional "output_base_dir" (Path.ofString "Output") Scalar.path
    <*> members.optional "max_concurrent_jobs" 2 (Scalar.wholeAtLeast 1)
    <*> members.optional "log_level" .info checkLogLevel
    <*> members.optional "log_file" none (Scalar.orNull Scalar.path)

def members (s : Settings) : Members :=
  [("ffmpeg_path", .str s.transcoder), ("ffprobe_path", .str s.prober),
   ("probe_timeout", .float s.probeTimeout), ("transcode_timeout", .float s.transcodeTimeout),
   ("fallback_duration", .float s.assumedDuration), ("fade_in_seconds", .float s.fadeIn),
   ("fade_out_seconds", .float s.fadeOut), ("allowed_extensions", .str s.allowedExtensions),
   ("output_base_dir", .str s.outputBase.toString), ("max_concurrent_jobs", .int s.maxJobs),
   ("log_level", .str s.logLevel.name),
   ("log_file", .ofOption (fun path => .str path.toString) s.logFile)]

def names : List String :=
  ["ffmpeg_path", "ffprobe_path", "probe_timeout", "transcode_timeout", "fallback_duration",
   "fade_in_seconds", "fade_out_seconds", "allowed_extensions", "output_base_dir",
   "max_concurrent_jobs", "log_level", "log_file"]

def nameStart : String := "RADIO_"

/-- The value that bindings have for a setting.  Of several bindings the last counts, also when it
has no value. -/
def bound? (bindings : List EnvironmentFile.Binding) (name : String) : Option Json :=
  let wanted := Text.lower (nameStart ++ name)
  ((bindings.reverse.find? fun b => Text.lower b.1 = wanted).bind (·.2)).map .str

/-- The members of the settings, each from its first source. -/
def collect (overrides : Members) (environment : List (String × String))
    (file : List EnvironmentFile.Binding) : Members :=
  let environment := environment.map fun (key, value) => (key, some value)
  names.filterMap fun name =>
    ((overrides.lookup name).or ((bound? environment name).or (bound? file name))).map (name, ·)

def load (overrides : Members) (environment : List (String × String))
    (file : List EnvironmentFile.Binding) : Checked Settings :=
  checkMembers (collect overrides environment file)

def environmentFile : Path := Path.ofString ".env"

/-- The text of the environment file, empty when there is none; none when it is not UTF-8. -/
def environmentFileText? (tree : FileTree) : Option String :=
  match tree.read environmentFile with
  | .ok content => Text.ofFile? content
  | .error _ => some ""

end Settings

end BroadcastIntake
