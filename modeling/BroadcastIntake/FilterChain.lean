import BroadcastIntake.Options
import BroadcastIntake.Probe

/-!
# Filter chains

The arguments that make the transcoder do what the options ask: filters in a fixed order (trim,
loudness, fade in, fade out), then codec, sample rate and tags.  A trim window that does not fit
the probed duration is left out with a warning.
-/

namespace BroadcastIntake

/-- The filters and encoder arguments for one file. -/
structure FilterChain where
  filters : List String
  codecArgs : List String
  sampleRateArgs : List String
  tagArgs : List String
  warnings : List String
  outputDuration : Binary64
  deriving DecidableEq, Repr

/-- A number as a filter argument: whole numbers without a point, others with at most three places
and no zeros at the end. -/
def formatSeconds (x : Binary64) : String :=
  if x.isWhole then intText x.truncate
  else if x.isFinite then
    Text.trimRightBy (· = '.') (Text.trimRightBy (· = '0') (x.fixedText 3))
  else x.text

/-- The softest and the loudest level that the loudness filter takes, in decibels. -/
def levelRange : Binary64 × Binary64 :=
  (.sub 0 70, .sub 0 5)

/-- The nearest level that the loudness filter takes. -/
def clampLevel (level : Binary64) : Binary64 :=
  .max levelRange.1 (.min levelRange.2 level)

/-- The part of a recording that is kept: from `start` to `stop` of `duration` seconds. -/
structure TrimWindow where
  start : Option Binary64
  stop : Binary64
  duration : Binary64
  deriving DecidableEq, Repr

namespace TrimWindow

/-- The window that the options ask for.  A start of zero counts as none. -/
def ofOptions (o : ProcessingOptions) (duration : Binary64) : TrimWindow :=
  ⟨o.trimStart.filter fun x => !x.isZero, o.trimEnd.getD duration, duration⟩

def startSeconds (w : TrimWindow) : Binary64 :=
  w.start.getD 0

def length (w : TrimWindow) : Binary64 :=
  w.stop - w.startSeconds

/-- Whether the window has a length and lies within the duration. -/
def fits (w : TrimWindow) : Bool :=
  0 < w.length && w.startSeconds < w.duration && w.stop ≤ w.duration

def startText (w : TrimWindow) : String :=
  match w.start with
  | some x => x.text
  | none => "0"

def message (w : TrimWindow) : String :=
  s!"Invalid trim window: start={w.startText}, end={w.stop.text}, " ++
    s!"duration={w.duration.text}, trimDuration={w.length.text}"

/-- The filters that cut the window out; the time stamps start at zero again, so that later fades
line up with what is left. -/
def filters (w : TrimWindow) : List String :=
  [s!"atrim=start={formatSeconds w.startSeconds}:duration={formatSeconds w.length}",
   "asetpts=PTS-STARTPTS"]

end TrimWindow

namespace FilterChain

def logger : String := "radio_ingest.ffmpeg_builder"

/-- The length of a fade in seconds unless another one is asked for. -/
def defaultFade : Binary64 := 0.5

def empty : FilterChain := ⟨[], [], [], [], [], .zero⟩

/-- The filter arguments: all filters in one argument, or none at all. -/
def filterArgs (c : FilterChain) : List String :=
  if c.filters.isEmpty then [] else ["-af", String.intercalate "," c.filters]

/-- The arguments between input and output. -/
def args (c : FilterChain) : List String :=
  c.filterArgs ++ c.codecArgs ++ c.sampleRateArgs ++ c.tagArgs

def command (c : FilterChain) (transcoder : String) (input output : Path) : List String :=
  [transcoder, "-hide_banner", "-loglevel", "warning", "-i", input.toString] ++ c.args ++
    ["-y", output.toString]

/-- What comes of a trim: the filters, the warnings, and the length of the result. -/
structure TrimResult where
  filters : List String
  warnings : List String
  duration : Binary64
  deriving DecidableEq, Repr

/-- The trim that the options ask for, told as it is worked out.  `source` names the file. -/
def trim (o : ProcessingOptions) (duration : Binary64) (source : String) : Logged TrimResult := do
  if o.trimStart.isNone && o.trimEnd.isNone then return ⟨[], [], duration⟩
  else
    let w := TrimWindow.ofOptions o duration
    Logged.tell .debug logger
      (s!"Trim settings - start: {w.startText}s, end: {w.stop.text}s, " ++
        s!"duration: {w.duration.text}s, trimDuration: {w.length.text}s")
    if w.fits then
      Logged.tell .info logger
        (s!"Applied trim: start={w.startText}s, duration={w.length.text}s " ++
          s!"(end={w.stop.text}s)")
      return ⟨w.filters, [], w.length⟩
    else
      let place := if source = "" then "" else source ++ ": "
      Logged.tell .warning logger s!"{place}{w.message}, trim skipped"
      return ⟨[], [w.message], duration⟩

def loudness (level? : Option Binary64) : Logged (List String) :=
  match level? with
  | none => return []
  | some requested => do
    let level := clampLevel requested
    if !level.eqv requested then
      Logged.tell .debug logger
        s!"Normalization level {requested.text} clamped to {level.text}"
    return [s!"loudnorm=I={formatSeconds level}"]

def fadeOutStart (outputDuration fadeOut : Binary64) : Binary64 :=
  .max 0 (outputDuration - fadeOut)

def fades (o : ProcessingOptions) (outputDuration fadeIn fadeOut : Binary64) : List String :=
  (if o.fadeIn then [s!"afade=t=in:st=0:d={formatSeconds fadeIn}"] else []) ++
    (if o.fadeOut then
      let start := fadeOutStart outputDuration fadeOut
      [s!"afade=t=out:st={formatSeconds start}:d={formatSeconds fadeOut}"]
    else [])

/-- The codec arguments for a format; formats other than the two known ones are left to the
transcoder. -/
def codec (o : ProcessingOptions) : List String :=
  if o.format = "mp3" then
    ["-codec:a", "libmp3lame"] ++
      match o.bitRate with
      | none | some 0 => []
      | some rate => ["-b:a", intText rate ++ "k"]
  else if o.format = AudioSettings.passThroughFormat then ["-codec:a", "pcm_s16le"]
  else []

def sampleRate (o : ProcessingOptions) : List String :=
  match o.sampleRate with
  | none | some 0 => []
  | some rate => ["-ar", intText rate]

/-- The fields that become tags, with the names of the tags. -/
def tagNames : List (String × String) :=
  [("title", "title"), ("artist", "artist"), ("album", "album"), ("genre", "genre"),
   ("year", "date"), ("comment", "comment")]

/-- The arguments that set the tags; empty fields set none. -/
def tags (o : ProcessingOptions) : List String :=
  tagNames.flatMap fun (field, tag) =>
    match o.tags.lookup field with
    | none | some "" => []
    | some value => ["-metadata", tag ++ "=" ++ value]

/-- The chain for the options and what is known about the file. -/
def build (o : ProcessingOptions) (probe : ProbeInfo) (fadeIn fadeOut : Binary64)
    (source : String) : Logged FilterChain := do
  let trimmed ← trim o probe.duration source
  let level ← loudness o.level
  return {
    filters := trimmed.filters ++ level ++ fades o trimmed.duration fadeIn fadeOut
    codecArgs := codec o
    sampleRateArgs := sampleRate o
    tagArgs := tags o
    warnings := trimmed.warnings
    outputDuration := trimmed.duration }

def check : Json → Checked FilterChain :=
  checkRecord fun members =>
    FilterChain.mk
      <$> members.optional "filters" [] (Scalar.list Scalar.text)
      <*> members.optional "codec_args" [] (Scalar.list Scalar.text)
      <*> members.optional "sample_rate_args" [] (Scalar.list Scalar.text)
      <*> members.optional "metadata_args" [] (Scalar.list Scalar.text)
      <*> members.optional "warnings" [] (Scalar.list Scalar.text)
      <*> members.optional "output_duration" .zero Scalar.number

def members (c : FilterChain) : Members :=
  [("filters", .ofTexts c.filters), ("codec_args", .ofTexts c.codecArgs),
   ("sample_rate_args", .ofTexts c.sampleRateArgs), ("metadata_args", .ofTexts c.tagArgs),
   ("warnings", .ofTexts c.warnings), ("output_duration", .float c.outputDuration)]

def toJson (c : FilterChain) : Json :=
  .object c.members

end FilterChain

end BroadcastIntake
