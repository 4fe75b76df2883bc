import BroadcastIntake.Session.DryRun
import BroadcastIntake.Session.Planning
import BroadcastIntake.Session.Processing
import BroadcastIntake.Tool.Transcoder

/-!
# The course of a session

A session reads its settings, sets logging up, and loads the profile of the show.  Then it does one
of four things: it tries the patterns of the show on names, gathers plans into a report, prints
plans, or works on files.
-/

namespace BroadcastIntake

namespace Session

/-! ## Before any work -/

/-- The settings that the command line asks for; asking for details sets the log level when nothing
else does. -/
def overridesOf (line : CommandLine) : Members :=
  let level :=
    match line.logLevel with
    | some name => [("log_level", .str name)]
    | none => if line.isDebug then [("log_level", .str LogLevel.debug.name)] else []
  let file :=
    match line.logFile with
    | some path => [("log_file", .str path.toString)]
    | none => []
  let jobs :=
    match line.jobs with
    | some n => [("max_concurrent_jobs", .int n)]
    | none => []
  level ++ file ++ jobs

def settingsFor (w : World) (line : CommandLine) : Session Settings := do
  match Settings.environmentFileText? (← tree) with
  | none => fail .environmentNotText
  | some text =>
    let file := EnvironmentFile.read w.environment text
    orFail .settings (Settings.load (overridesOf line) w.environment file).toExcept

def startLogging (settings : Settings) : Session Unit := do
  let (logging, opened) ← orFail .logging
    (LogSetup.start (← tree) settings.logLevel.name settings.logFile LogFile.standardMaxBytes
      LogFile.standardBackups)
  modify fun s => { s with logging, tree := opened }

def exit {α : Type} (code : Nat) (errors : String) : Session α :=
  stop (.exit code errors)

def loadProfile (path : Path) : Session ShowProfile := do
  match ShowProfile.load (← tree) path with
  | .ok profile => return profile
  | .error (.profile e) =>
    printAll (ConsoleItem.failure "Cannot load show profile" (some e.account))
    exit 2 ""
  | .error e => fail (.profile e)

def transcoderIsThere (w : World) (settings : Settings) : Session Bool := do
  let call := Transcoder.versionCall settings.transcoder
  let ending ← working w fun tree => pure ((w.tools call).perform call tree)
  noteCalls [call]
  match ending with
  | some ending => orFail .crash (Transcoder.isAvailable ending)
  | none => fail .stuck

/-- Warns when the transcoder is not there; files are then copied. -/
def checkTranscoder (w : World) (settings : Settings) : Session Unit := do
  if ← transcoderIsThere w settings then return
  else
    print (.warning
      (s!"ffmpeg not available at '{settings.transcoder}', " ++
        "files needing processing will be copied unchanged"))

/-! ## The work -/

/-- Works on the files at a place, in the way that the command line asks for. -/
def workAt (w : World) (line : CommandLine) (c : ShowContext) (root : Path) : Session Unit := do
  let directory := (← tree).workingDirectory
  startCluster w line c.settings
  match line.gatherInto with
  | some path => gather w c root line.limit (path.resolve directory)
  | none =>
    let report := line.report.map (·.resolve directory)
    let files ← applyLimit (← filesFor w c root report) line.limit
    if line.isDryRun then dryRun w c line.isDebug files
    else summarize (← process w c (workersFor line c.settings) report files)

/-- Works for a show, unless it is disabled or the place does not exist. -/
def workFor (w : World) (line : CommandLine) (settings : Settings) (profile : ShowProfile)
    (root : Path) : Session Unit := do
  print (.header s!"Radio Ingest: {profile.name}")
  if !profile.enabled then print (.skipped s!"Show '{profile.name}' is disabled")
  else if ← orFail .file ((← tree).pathExists root) then
    if !line.isDryRun then checkTranscoder w settings
    let directory := (← tree).workingDirectory
    let c : ShowContext :=
      { profile, settings, today := w.today
        outputDirectory := line.outputDirectory.map (·.resolve directory) }
    workAt w line c root
  else exit 2 s!"Path does not exist: {root}\n"

def tryNames (profile : ShowProfile) (names : List String) : Session Unit := do
  printAll (← orFail (fun issues => .crash (.extraction issues)) (profile.trialsShown names))

def ofRequest (w : World) (line : CommandLine) : Session Unit := do
  let settings ← settingsFor w line
  startLogging settings
  let profile ← loadProfile line.profile
  match line.target with
  | .trial names => tryNames profile names
  | .place root => workFor w line settings profile root

end Session

/-! ## Whole sessions -/

/-- What a session leaves: how it ended, what it printed, the calls of tools, and the tree. -/
structure SessionOutcome where
  ending : SessionEnd
  shown : List Notice
  calls : List ToolCall
  tree : FileTree

namespace SessionOutcome

def startState (tree : FileTree) : SessionState :=
  { tree, logging := ⟨.unset, none⟩, shown := [], calls := [] }

/-- The outcome of a session that does nothing but end. -/
def ended (ending : SessionEnd) (tree : FileTree) : SessionOutcome :=
  ⟨ending, [], [], tree⟩

def ofAction (action : Session Unit) (tree : FileTree) : SessionOutcome :=
  let (result, s) := action.run (startState tree)
  let ending :=
    match result with
    | .ok () => .exit 0 ""
    | .error ending => ending
  ⟨ending, s.shown, s.calls, s.tree⟩

/-- The outcome of the session with the given command line. -/
def ofWords (w : World) (words : List String) (tree : FileTree) : SessionOutcome :=
  match CommandLine.ofWords words with
  | .help => ended .help tree
  | .fault f => ended (.fault f) tree
  | .request line => ofAction (Session.ofRequest w line) tree

end SessionOutcome

end BroadcastIntake
