import BroadcastIntake.Batch
import BroadcastIntake.Session.Basic

/-!
# Processing in a session

Works on files as one batch, prints every result, and marks the files that were done in the report
that they came from.
-/

namespace BroadcastIntake

namespace Session

def markProcessed (w : World) (report file : Path) : Session Unit := do
  match ← working w (fun tree =>
      Report.update tree report file.toString true none w.now) with
  | none => return
  | some e => fail (.report e)

/-- What follows a result: it is printed, and a success is marked in the report. -/
def settleResult (w : World) (report : Option Path) (file : Path) (result : JobResult) :
    Session Unit := do
  printJob result.shown
  match report with
  | some path => if result.success then markProcessed w path file else return
  | none => return

/-- What follows the results, one after the other. -/
def settleResults (w : World) (report : Option Path) : List (Path × JobResult) → Session Unit
  | [] => return
  | (file, result) :: rest => do
    settleResult w report file result
    settleResults w report rest

/-- Runs the batch of files and gives its results in the order in which the jobs ended. -/
def runBatch (w : World) (c : ShowContext) (workers : Nat) (files : List Path) :
    Session (List (Path × JobResult)) := do
  let surroundings := Surroundings.ofSettings c.settings w.tools
  let done ← working w fun tree => do
    let p ← Batch.run surroundings (Batch.ofFiles c workers files tree)
    return (p.batch.tree, p)
  noteCalls done.calls
  if done.results.length = files.length then return done.results else fail .stuck

/-- The statistics of a batch that starts at the time of the world. -/
def statsOf (w : World) (total : Nat) (results : List JobResult) : BatchStats :=
  { (BatchStats.ofTotal total).addAll results with
    start := some w.now
    stop := some { w.now with micros := w.now.micros + w.batchMicros } }

/-- Works on files and gives the statistics.  Nothing is said when there are none. -/
def process (w : World) (c : ShowContext) (workers : Int) (report : Option Path)
    (files : List Path) : Session BatchStats :=
  if files.isEmpty then return statsOf w 0 []
  else do
    print (.info s!"Processing {files.length} files with {intText workers} workers...")
    let results ← runBatch w c workers.toNat files
    settleResults w report results
    return statsOf w files.length (results.map Prod.snd)

/-- Prints the statistics of a batch; the exit code tells whether a file failed. -/
def summarize (stats : BatchStats) : Session Unit := do
  print (← orFail .time stats.shown)
  if stats.failed = 0 then stop (.exit 0 noErrors) else stop (.exit 1 noErrors)
where
  /-- Nothing is said on the channel for errors. -/
  noErrors : String := ""

end Session

end BroadcastIntake
