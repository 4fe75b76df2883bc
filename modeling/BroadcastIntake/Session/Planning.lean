import BroadcastIntake.Collection
import BroadcastIntake.Report.Survey
import BroadcastIntake.Session.Basic

/-!
# Planning in a session

Which files a session is about, and the reports of their plans.  Files are surveyed on the machine
itself, or on a cluster that is started for it; when no cluster can be started, the machine does.
-/

namespace BroadcastIntake

namespace Session

/-- How many jobs may be under way at once. -/
def workersFor (line : CommandLine) (settings : Settings) : Int :=
  line.jobs.getD settings.maxJobs

def startCluster (w : World) (line : CommandLine) (settings : Settings) : Session Unit :=
  if line.isDistributed then
    match w.clusterFault with
    | none =>
      let workers := intText (workersFor line settings)
      print (.info s!"Dask distributed client started with {workers} workers")
    | some fault => do
      print (.warning s!"Failed to start distributed client: {fault}")
      print (.info "Falling back to local threaded planning")
  else return

/-- The files of the show at a place. -/
def collect (w : World) (c : ShowContext) (root : Path) : Session (List Path) := do
  orFail .file (← told w (Collection.collect c.profile c.settings root (← tree)))

/-- Surveys files.  Nothing is said when there are none. -/
def survey (w : World) (c : ShowContext) (files : List Path) : Session (List ReportRow) :=
  if files.isEmpty then return []
  else do
    print (.info s!"Planning {files.length} files in parallel...")
    let surveyed ← working w fun tree => do
      let s ← Survey.ofFiles w.tools c w.now files tree
      return (s.tree, s)
    noteCalls surveyed.calls
    match surveyed.outcome with
    | some rows => orFail .crash rows
    | none => fail .stuck

def writeReport (w : World) (rows : List ReportRow) (path : Path) : Session Unit := do
  match ← working w (fun tree => Report.write tree rows path) with
  | none => return
  | some e => fail (.report e)

/-- Keeps only the first files, when a positive number of files is asked for. -/
def limitFiles (files : List Path) (limit : Option Int) : List Path × List ConsoleItem :=
  match limit with
  | some n =>
    if 0 < n then
      let kept := files.take n.toNat
      let message :=
        s!"Limiting processing to {kept.length} files (--limit {intText n})"
      (kept, [.info message])
    else (files, [])
  | none => (files, [])

/-- Keeps only the first files and says so. -/
def applyLimit (files : List Path) (limit : Option Int) : Session (List Path) := do
  let (kept, said) := limitFiles files limit
  printAll said
  return kept

/-- Surveys the files at a place and writes a report of them. -/
def gather (w : World) (c : ShowContext) (root : Path) (limit : Option Int) (into : Path) :
    Session Unit := do
  let files ← applyLimit (← collect w c root) limit
  let rows ← survey w c files
  writeReport w rows into
  print (.success s!"Plan saved to {into} ({rows.length} files)")

/-- The rows of a report; one that does not exist is made from the files at a place. -/
def reportRows (w : World) (c : ShowContext) (root path : Path) : Session (List ReportRow) := do
  match Report.read (← tree) path with
  | .ok rows => return rows
  | .error (.missing _) =>
    print (.info s!"Plan report not found, creating new one: {path}")
    let rows ← survey w c (← collect w c root)
    writeReport w rows path
    return rows
  | .error e => fail (.report e)

/-- The files that a session is about: those left in a report, or those at a place. -/
def filesFor (w : World) (c : ShowContext) (root : Path) (report : Option Path) :
    Session (List Path) :=
  match report with
  | some path => do
    let rows ← reportRows w c root path
    let files ← orFail .report (Report.left (← tree) rows)
    print (.info s!"Plan report loaded: {rows.length} files, {files.length} left to process")
    return files
  | none => do
    let files ← collect w c root
    print (.info s!"Found {files.length} matching audio files")
    return files

end Session

end BroadcastIntake
