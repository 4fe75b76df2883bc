import BroadcastIntake.Job.Result
import BroadcastIntake.Timestamp

/-!
# Statistics of batches

Every file of a batch counts in exactly one class: skipped, failed, copied in place of a transcode,
transcoded, or copied.
-/

namespace BroadcastIntake

/-- The counts of a batch, and when it started and ended. -/
structure BatchStats where
  total : Int
  processed : Int
  transcoded : Int
  copied : Int
  fallback : Int
  failed : Int
  skipped : Int
  start : Option Timestamp
  stop : Option Timestamp
  deriving DecidableEq, Repr

namespace BatchStats

/-- The statistics of a batch of `total` files before any work. -/
def ofTotal (total : Nat) : BatchStats :=
  ⟨total, 0, 0, 0, 0, 0, 0, none, none⟩

/-- The statistics with one more result; a file without result was skipped. -/
def add (s : BatchStats) (result : Option JobResult) : BatchStats :=
  let counted :=
    match result with
    | none => { s with skipped := s.skipped + 1 }
    | some r =>
      if !r.success then { s with failed := s.failed + 1 }
      else if r.usedFallback then { s with fallback := s.fallback + 1 }
      else if r.transcoded then { s with transcoded := s.transcoded + 1 }
      else { s with copied := s.copied + 1 }
  { counted with processed := s.processed + 1 }

def addAll (s : BatchStats) (results : List JobResult) : BatchStats :=
  results.foldl (fun s r => s.add (some r)) s

/-- How many seconds a batch took, once it has ended.  It fails when only one of the two times
names its zone. -/
def duration (s : BatchStats) : Except TimeFault (Option Binary64) :=
  match s.start, s.stop with
  | some start, some stop => (Timestamp.secondsBetween start stop).map some
  | _, _ => .ok none

/-- The record of statistics, with the duration in place of the two times. -/
def toJson (s : BatchStats) : Except TimeFault Json :=
  s.duration.map fun duration =>
    .object [("total_files", .int s.total), ("processed_files", .int s.processed),
      ("transcoded_files", .int s.transcoded), ("copied_files", .int s.copied),
      ("fallback_files", .int s.fallback), ("failed_files", .int s.failed),
      ("skipped_files", .int s.skipped), ("processing_duration", .ofOption .float duration)]

def check : Json → Checked BatchStats :=
  checkRecord fun members =>
    let count (key : String) : Checked Int := members.optional key 0 Scalar.whole
    BatchStats.mk <$> count "total_files" <*> count "processed_files"
      <*> count "transcoded_files" <*> count "copied_files" <*> count "fallback_files"
      <*> count "failed_files" <*> count "skipped_files"
      <*> members.optional "start_time" none (Scalar.orNull Timestamp.check)
      <*> members.optional "end_time" none (Scalar.orNull Timestamp.check)

end BatchStats

end BroadcastIntake
