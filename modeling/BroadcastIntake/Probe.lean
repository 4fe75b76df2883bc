import BroadcastIntake.Schema.Scalar
import BroadcastIntake.Json.Reader

/-!
# Probing

What is known about a source file before it is worked on.  The prober's report is a JSON object
whose `format` has the duration; a report without a usable duration is of no use.
-/

namespace BroadcastIntake

/-- What is known about a source file: how long it is in seconds, its format, its number of
streams, and whether all that is only assumed. -/
structure ProbeInfo where
  duration : Binary64
  format : Option String
  streamCount : Int
  isAssumed : Bool
  deriving DecidableEq, Repr

/-- Why a prober's report is not taken. -/
inductive ProbeFault where
  /-- The report is not JSON. -/
  | unreadable (error : JsonError)
  /-- The report is JSON, but not an object. -/
  | notObject
  | noDuration
  | nonPositiveDuration (duration : Binary64)
  deriving DecidableEq, Repr

/-- Why a prober's report leads to no answer at all. -/
inductive ProbeError where
  | fault (fault : ProbeFault)
  /-- A number in the report is not read for its size. -/
  | unreadableNumber (error : JsonError)
  /-- The report is nested too deeply. -/
  | tooDeep (error : JsonError)
  /-- The duration is a whole number beyond all numbers of double precision. -/
  | durationTooLarge
  /-- The list of streams is a value that has no length. -/
  | streamsNotCountable
  | invalid (issues : List Issue)
  deriving DecidableEq, Repr

namespace ProbeFault

def message : ProbeFault → String
  | unreadable error => s!"Unparsable ffprobe output: {error.message}"
  | notObject => "Unexpected ffprobe output"
  | noDuration => "ffprobe output has no usable duration"
  | nonPositiveDuration duration =>
    s!"ffprobe reported non-positive duration {duration.text}"

end ProbeFault

namespace ProbeInfo

def check : Json → Checked ProbeInfo :=
  checkRecord fun members =>
    ProbeInfo.mk
      <$> members.required "duration" Scalar.number
      <*> members.optional "format_name" none (Scalar.orNull Scalar.text)
      <*> members.optional "stream_count" 0 Scalar.whole
      <*> members.optional "fallback_used" false Scalar.flag

def toJson (p : ProbeInfo) : Json :=
  .object [("duration", .float p.duration), ("format_name", .ofOption .str p.format),
    ("stream_count", .int p.streamCount), ("fallback_used", .bool p.isAssumed)]

/-- The duration that a value gives: a number, a flag, or a text that writes a number. -/
def durationOf (value : Option Json) : Except ProbeError Binary64 :=
  match value with
  | some (.float x) => .ok x
  | some (.int i) => (Binary64.ofInt? i).elim (.error .durationTooLarge) .ok
  | some (.bool b) => .ok (if b then 1 else 0)
  | some (.str s) =>
    match readBinary64 s with
    | .ok x => .ok x
    | .error _ => .error (.fault .noDuration)
  | _ => .error (.fault .noDuration)

/-- The number of streams that a value gives; a value that counts as empty gives none. -/
def streamCountOf (value : Option Json) : Except ProbeError Nat :=
  match value with
  | none => .ok 0
  | some (.list items) => .ok items.length
  | some (.object members) => .ok members.length
  | some (.str s) => .ok s.length
  | some value => if value.isTruthy then .error .streamsNotCountable else .ok 0

def formatOf (value : Option Json) : Except ProbeError (Option String) :=
  match (Scalar.orNull Scalar.text (value.getD .null)).under (.key "format_name") with
  | .valid format => .ok format
  | .invalid issues => .error (.invalid issues)

def readReport (report : String) : Except ProbeError Json :=
  match Json.read report with
  | .ok (.object members) => .ok (.object members)
  | .ok _ => .error (.fault .notObject)
  | .error e =>
    match e.fault with
    | .tooManyDigits _ => .error (.unreadableNumber e)
    | .nestedTooDeeply _ => .error (.tooDeep e)
    | _ => .error (.fault (.unreadable e))

/-- What a prober's report says about a file. -/
def ofReport (report : String) : Except ProbeError ProbeInfo := do
  let info ← readReport report
  let format := (info.get? "format").getD .null
  let duration ← durationOf (format.get? "duration")
  if duration ≤ 0 then throw (.fault (.nonPositiveDuration duration))
  let streams ← streamCountOf (info.get? "streams")
  let formatName ← formatOf (format.get? "format_name")
  return ⟨duration, formatName, streams, false⟩

/-- What is assumed about a file that cannot be probed. -/
def assumed (duration : Binary64) : ProbeInfo :=
  ⟨duration, none, 1, true⟩

end ProbeInfo

end BroadcastIntake
