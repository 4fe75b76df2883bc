import BroadcastIntake.Proofs.Report.Fresh
import BroadcastIntake.Proofs.Report.Missing
import BroadcastIntake.Proofs.Session.Frame

/-!
# What a dry run writes

A dry run says that nothing is written.  All that it does is quiet, with one exception: asked to use
a report that is not there, it makes the report, and the directories above it, before it prints any
plan.  `leadsTo_ofRequest_iff` says exactly when this happens, and to which tree it leads.
-/

namespace BroadcastIntake

namespace Session

/-- The settings that a command line leads to; none when they are not valid. -/
def settings? (w : World) (line : CommandLine) (tree : FileTree) : Option Settings :=
  (Settings.environmentFileText? tree).bind fun text =>
    (Settings.load (overridesOf line) w.environment
      (EnvironmentFile.read w.environment text)).toExcept.toOption

/-- The context in which a session works on files. -/
def contextIn (w : World) (line : CommandLine) (settings : Settings) (profile : ShowProfile)
    (tree : FileTree) : ShowContext :=
  { profile, settings, today := w.today
    outputDirectory := line.outputDirectory.map (·.resolve tree.workingDirectory) }

/-- The prober writes no file for any path. -/
def ProbesOnly (w : World) (settings : Settings) : Prop :=
  ∀ path, (w.tools ((Surroundings.ofSettings settings w.tools).prober.call path)).writes = none

/-- A command line asks for a dry run and for no report to be gathered, there is no log file, and
the prober writes no file. -/
structure IsDryRun (w : World) (line : CommandLine) (tree : FileTree) : Prop where
  isDryRun : line.isDryRun = true
  gathersNone : line.gatherInto = none
  logFile : ∀ settings, settings? w line tree = some settings → settings.logFile = none
  prober : ∀ settings, settings? w line tree = some settings → ProbesOnly w settings

/-- Asked to use the report at a path, a session makes one: nothing is found there, something can be
made there, and the rows are those of a survey of the files at the place, which are not none. -/
structure FillsReport (w : World) (c : ShowContext) (root path : Path) (rows : List ReportRow)
    (tree : FileTree) : Prop where
  missing : tree.pathExists path = .ok false
  canMake : Report.CanMake tree path
  nonempty : rows ≠ []
  surveyed : ∃ files, (Collection.collect c.profile c.settings root tree).value = .ok files ∧
    (Survey.ofFiles w.tools c w.now files tree).value.outcome = some (.ok rows)

/-- A session comes to make a report of the files at a place: its settings and its show are valid,
the show is enabled, the place exists, and the report that it is asked to use is made. -/
structure MakesReport (w : World) (line : CommandLine) (tree : FileTree) (c : ShowContext)
    (root path : Path) (rows : List ReportRow) : Prop where
  settings : settings? w line tree = some c.settings
  profile : ShowProfile.load tree line.profile = .ok c.profile
  target : line.target = .place root
  enabled : c.profile.enabled = true
  place : tree.pathExists root = .ok true
  context : contextIn w line c.settings c.profile tree = c
  report : line.report.map (·.resolve tree.workingDirectory) = some path
  fills : FillsReport w c root path rows tree

variable {w : World} {c : ShowContext}

/-! ## The prober -/

theorem tree_probe {settings : Settings} (hprober : ProbesOnly w settings) (tree : FileTree)
    (path : Path) :
    ((Surroundings.ofSettings settings w.tools).probe tree path).value.1 = tree := by
  have hperform : ((w.tools ((Surroundings.ofSettings settings w.tools).prober.call path)).perform
      ((Surroundings.ofSettings settings w.tools).prober.call path) tree).1 = tree := by
    rw [ToolConduct.perform, hprober path]
  unfold Surroundings.probe
  dsimp only
  split <;> rename_i hperformed <;> exact (congrArg Prod.fst hperformed).symm.trans hperform

theorem tree_surveyFile (hprober : ProbesOnly w c.settings) (file : Path) (tree : FileTree) :
    (Survey.ofFile w.tools c w.now file tree).value.tree = tree := by
  unfold Survey.ofFile
  simp only [Logged.value_bind]
  split
  · rfl
  · simp only [Logged.value_bind]
    have htree := tree_probe hprober tree file
    split <;> rename_i hprobed <;> rw [hprobed] at htree <;> exact htree

theorem tree_survey (hprober : ProbesOnly w c.settings) (files : List Path) :
    ∀ tree : FileTree, (Survey.ofFiles w.tools c w.now files tree).value.tree = tree := by
  induction files with
  | nil => exact fun _ => rfl
  | cons file rest ih =>
      intro tree
      have hfirst := tree_surveyFile hprober file tree
      unfold Survey.ofFiles
      simp only [Logged.value_bind]
      split
      · simp only [Logged.value_bind, Logged.value_pure]
        rw [ih, hfirst]
      · exact hfirst

/-! ## Printing plans -/

theorem isQuiet_probe {settings : Settings} (hprober : ProbesOnly w settings) (file : Path) :
    IsQuiet (probe w settings file) := by
  refine (isQuiet_working w fun tree => tree_probe hprober tree file).bind fun answer => ?_
  refine (isQuiet_noteCalls _).bind fun _ => ?_
  split
  · exact isQuiet_orFail _ _
  · exact isQuiet_fail _

theorem isQuiet_commandFor {settings : Settings} (hprober : ProbesOnly w settings) (plan : Plan) :
    IsQuiet (commandFor w settings plan) := by
  refine (isQuiet_probe hprober _).bind fun info => ?_
  refine (isQuiet_told w _).bind fun described => ?_
  exact (isQuiet_printAll _).bind fun _ => isQuiet_pure _

theorem isQuiet_dryRunFile (hprober : ProbesOnly w c.settings) (isDebug : Bool) (file : Path) :
    IsQuiet (dryRunFile w c isDebug file) := by
  refine (isQuiet_print _).bind fun _ => (isQuiet_told w _).bind fun planned => ?_
  refine (isQuiet_orFail _ _).bind fun plan => ?_
  have hrest : ∀ command : List String, IsQuiet (do
      printAll (plan.shown command)
      let size ← orFail .file (sizeText (← tree) file)
      print (.info s!"Size: {size}")) := fun command =>
    (isQuiet_printAll _).bind fun _ => isQuiet_tree.bind fun tree =>
      (isQuiet_orFail _ _).bind fun size => isQuiet_print _
  split
  · exact (isQuiet_commandFor hprober plan).bind hrest
  · exact (isQuiet_pure _).bind hrest

theorem isQuiet_dryRun (hprober : ProbesOnly w c.settings) (isDebug : Bool) (files : List Path) :
    IsQuiet (dryRun w c isDebug files) := by
  have hfiles : IsQuiet (dryRunFiles w c isDebug files) := by
    induction files with
    | nil => exact isQuiet_pure ()
    | cons file rest ih => exact (isQuiet_dryRunFile hprober isDebug file).bind fun _ => ih
  exact hfiles.bind fun _ => isQuiet_print _

/-! ## Planning -/

theorem isQuiet_collect (w : World) (c : ShowContext) (root : Path) : IsQuiet (collect w c root) :=
  isQuiet_tree.bind fun _ => (isQuiet_told w _).bind fun _ => isQuiet_orFail _ _

theorem isQuiet_survey (hprober : ProbesOnly w c.settings) (files : List Path) :
    IsQuiet (survey w c files) := by
  unfold survey
  split
  · exact isQuiet_pure []
  · refine (isQuiet_print _).bind fun _ => ?_
    refine (isQuiet_working w (tree_survey hprober files)).bind fun surveyed => ?_
    refine (isQuiet_noteCalls _).bind fun _ => ?_
    split
    · exact isQuiet_orFail _ _
    · exact isQuiet_fail _

theorem isQuiet_applyLimit (files : List Path) (limit : Option Int) :
    IsQuiet (applyLimit files limit) :=
  (isQuiet_printAll _).bind fun _ => isQuiet_pure _

theorem result_startCluster (w : World) (line : CommandLine) (settings : Settings)
    (s : SessionState) : (outcome (startCluster w line settings) s).1 = .ok () := by
  unfold startCluster
  split
  · split <;> rfl
  · rfl

theorem isQuiet_startCluster (w : World) (line : CommandLine) (settings : Settings) :
    IsQuiet (startCluster w line settings) := by
  unfold startCluster
  split
  · split
    · exact isQuiet_print _
    · exact (isQuiet_print _).bind fun _ => isQuiet_print _
  · exact isQuiet_pure ()

/-! ## Making a report -/

variable {s : SessionState} {root path : Path} {made : FileTree}

theorem result_collect_iff {files : List Path} (hs : s.logging.file = none) :
    (outcome (collect w c root) s).1 = .ok files ↔
      (Collection.collect c.profile c.settings root s.tree).value = .ok files := by
  let R (tree : FileTree) : Prop :=
    (Collection.collect c.profile c.settings root tree).value = .ok files
  refine (result_bind_iff (R := fun tree _ => R tree) isQuiet_tree hs fun tree s hs => ?_).trans
    (by simp [R])
  exact (result_bind_iff (R := fun found _ => found = .ok files) (isQuiet_told w _) hs
    fun found s hs => result_orFail_iff).trans (by simp [R, result_told_iff hs])

theorem result_survey_iff {files : List Path} {rows : List ReportRow}
    (hprober : ProbesOnly w c.settings) (hs : s.logging.file = none) :
    (outcome (survey w c files) s).1 = .ok rows ↔
      (Survey.ofFiles w.tools c w.now files s.tree).value.outcome = some (.ok rows) := by
  let R (tree : FileTree) : Prop :=
    (Survey.ofFiles w.tools c w.now files tree).value.outcome = some (.ok rows)
  unfold survey
  split
  · rename_i hempty
    rw [List.isEmpty_iff.1 hempty, result_pure_iff]
    simp [Survey.ofFiles]
  · refine (result_bind_iff (R := fun _ tree => R tree) (isQuiet_print _) hs fun _ s hs => ?_).trans
      (by simp [R])
    refine (result_bind_iff (R := fun surveyed _ => surveyed.outcome = some (.ok rows))
      (isQuiet_working w (tree_survey hprober files)) hs fun surveyed s hs => ?_).trans
      (by simp [R, result_working_iff hs])
    refine (result_bind_iff (R := fun _ _ => surveyed.outcome = some (.ok rows))
      (isQuiet_noteCalls _) hs fun _ s hs => ?_).trans (by simp)
    rcases houtcome : surveyed.outcome with _ | found <;> simp

theorem logsNowhere_writeReport (rows : List ReportRow) (path : Path) :
    LogsNowhere (writeReport w rows path) := by
  refine (logsNowhere_working w _).bind fun failure => ?_
  split
  · exact (isQuiet_pure ()).logsNowhere
  · exact (isQuiet_fail _).logsNowhere

theorem leadsTo_writeReport_iff {rows : List ReportRow} (hs : s.logging.file = none) :
    LeadsTo (writeReport w rows path) s made ↔
      (Report.write s.tree rows path).value.1 = made ∧ made ≠ s.tree := by
  refine (leadsTo_bind_quiet_iff (logsNowhere_working w _) hs fun failure => ?_).trans
    (leadsTo_working_iff w _ hs)
  split
  · exact isQuiet_pure ()
  · exact isQuiet_fail _

/-- What a session does when the report that it is asked to use is not there. -/
def fillReport (w : World) (c : ShowContext) (root path : Path) : Session (List ReportRow) := do
  print (.info s!"Plan report not found, creating new one: {path}")
  let rows ← survey w c (← collect w c root)
  writeReport w rows path
  return rows

theorem reportRows_eq (w : World) (c : ShowContext) (root path : Path) :
    reportRows w c root path = (do
      match Report.read (← tree) path with
      | .ok rows => return rows
      | .error (.missing _) => fillReport w c root path
      | .error e => fail (.report e)) :=
  rfl

theorem leadsTo_fillReport_iff (hprober : ProbesOnly w c.settings) (hs : s.logging.file = none) :
    LeadsTo (fillReport w c root path) s made ↔ ∃ files rows,
      (Collection.collect c.profile c.settings root s.tree).value = .ok files ∧
        (Survey.ofFiles w.tools c w.now files s.tree).value.outcome = some (.ok rows) ∧
          (Report.write s.tree rows path).value.1 = made ∧ made ≠ s.tree := by
  -- what is left to do, from the last action to the first
  let Writing (rows : List ReportRow) (tree : FileTree) : Prop :=
    (Report.write tree rows path).value.1 = made ∧ made ≠ tree
  let Surveying (files : List Path) (tree : FileTree) : Prop := ∃ rows,
    (Survey.ofFiles w.tools c w.now files tree).value.outcome = some (.ok rows) ∧ Writing rows tree
  let Collecting (tree : FileTree) : Prop := ∃ files,
    (Collection.collect c.profile c.settings root tree).value = .ok files ∧ Surveying files tree
  have hcollecting : Collecting s.tree ↔ ∃ files rows,
      (Collection.collect c.profile c.settings root s.tree).value = .ok files ∧
        (Survey.ofFiles w.tools c w.now files s.tree).value.outcome = some (.ok rows) ∧
          (Report.write s.tree rows path).value.1 = made ∧ made ≠ s.tree := by
    simp only [Collecting, Surveying, Writing, exists_and_left]
  rw [← hcollecting]
  refine (leadsTo_bind_iff (P := fun _ tree => Collecting tree) (isQuiet_print _) hs
    fun _ s hs => ?_).trans (by simp)
  refine (leadsTo_bind_iff (P := Surveying) (isQuiet_collect w c root) hs
    fun files s hs => ?_).trans (by simp only [result_collect_iff hs, Collecting])
  refine (leadsTo_bind_iff (P := Writing) (isQuiet_survey hprober files) hs
    fun rows s hs => ?_).trans (by simp only [result_survey_iff hprober hs, Surveying])
  exact (leadsTo_bind_quiet_iff (logsNowhere_writeReport rows path) hs
    fun _ => isQuiet_pure rows).trans (leadsTo_writeReport_iff hs)

theorem logsNowhere_fillReport (hprober : ProbesOnly w c.settings) :
    LogsNowhere (fillReport w c root path) := by
  refine (isQuiet_print _).logsNowhere.bind fun _ => ?_
  refine (isQuiet_collect w c root).logsNowhere.bind fun files => ?_
  refine (isQuiet_survey hprober files).logsNowhere.bind fun rows => ?_
  exact (logsNowhere_writeReport rows path).bind fun _ => (isQuiet_pure rows).logsNowhere

/-- Using a report leads to another tree when the report is filled, and not otherwise. -/
theorem leadsTo_reportRows_iff (hprober : ProbesOnly w c.settings) (hdirect : path.IsDirect)
    (hs : s.logging.file = none) : LeadsTo (reportRows w c root path) s made ↔
      ∃ rows, FillsReport w c root path rows s.tree ∧
        (Report.write s.tree rows path).value.1 = made := by
  let Filling (tree : FileTree) : Prop := ∃ files rows,
    (Collection.collect c.profile c.settings root tree).value = .ok files ∧
      (Survey.ofFiles w.tools c w.now files tree).value.outcome = some (.ok rows) ∧
        (Report.write tree rows path).value.1 = made ∧ made ≠ tree
  rw [reportRows_eq]
  refine (leadsTo_bind_iff
    (P := fun found tree => (∃ q, Report.read found path = .error (.missing q)) ∧ Filling tree)
    isQuiet_tree hs fun found s hs => ?_).trans ?_
  · rcases hread : Report.read found path with e | rows
    · cases e with
      | missing q => simpa [Filling] using leadsTo_fillReport_iff hprober hs
      | _ => simp [(isQuiet_fail _).not_leadsTo hs]
    · simp [(isQuiet_pure rows).not_leadsTo hs]
  · simp only [result_tree_iff, exists_eq_left', Report.read_eq_missing_iff, Filling]
    constructor
    · rintro ⟨hmissing, files, rows, hcollected, hsurveyed, rfl, hother⟩
      obtain ⟨hrows, hcan⟩ := (Report.write_ne_iff hdirect hmissing).1 hother
      exact ⟨rows, ⟨hmissing, hcan, hrows, files, hcollected, hsurveyed⟩, rfl⟩
    · rintro ⟨rows, hfills, rfl⟩
      obtain ⟨files, hcollected, hsurveyed⟩ := hfills.surveyed
      exact ⟨hfills.missing, files, rows, hcollected, hsurveyed, rfl,
        (Report.write_ne_iff hdirect hfills.missing).2 ⟨hfills.nonempty, hfills.canMake⟩⟩

theorem logsNowhere_reportRows (hprober : ProbesOnly w c.settings) :
    LogsNowhere (reportRows w c root path) := by
  rw [reportRows_eq]
  refine isQuiet_tree.logsNowhere.bind fun tree => ?_
  split
  · exact (isQuiet_pure _).logsNowhere
  · exact logsNowhere_fillReport hprober
  · exact (isQuiet_fail _).logsNowhere

theorem logsNowhere_filesFor (hprober : ProbesOnly w c.settings) (report : Option Path) :
    LogsNowhere (filesFor w c root report) := by
  cases report with
  | none =>
      exact (isQuiet_collect w c root).logsNowhere.bind fun files =>
        (isQuiet_print _).logsNowhere.bind fun _ => (isQuiet_pure files).logsNowhere
  | some path =>
      refine (logsNowhere_reportRows hprober).bind fun rows => ?_
      exact (isQuiet_tree.bind fun tree => (isQuiet_orFail _ _).bind fun files =>
        (isQuiet_print _).bind fun _ => isQuiet_pure files).logsNowhere

theorem leadsTo_filesFor_iff (hprober : ProbesOnly w c.settings) {report : Option Path}
    (hdirect : ∀ path, report = some path → path.IsDirect) (hs : s.logging.file = none) :
    LeadsTo (filesFor w c root report) s made ↔ ∃ path rows, report = some path ∧
      FillsReport w c root path rows s.tree ∧ (Report.write s.tree rows path).value.1 = made := by
  cases report with
  | none =>
      have hquiet : IsQuiet (filesFor w c root none) :=
        (isQuiet_collect w c root).bind fun files => (isQuiet_print _).bind fun _ => isQuiet_pure _
      simp [hquiet.not_leadsTo hs]
  | some path =>
      refine (leadsTo_bind_quiet_iff (logsNowhere_reportRows hprober) hs fun rows => ?_).trans
        ((leadsTo_reportRows_iff hprober (hdirect path rfl) hs).trans (by simp))
      exact isQuiet_tree.bind fun tree => (isQuiet_orFail _ _).bind fun files =>
        (isQuiet_print _).bind fun _ => isQuiet_pure _

/-! ## The whole session -/

variable {line : CommandLine} {settings : Settings} {profile : ShowProfile}

theorem leadsTo_workAt_iff (hprober : ProbesOnly w c.settings) (hdry : line.isDryRun = true)
    (hgathers : line.gatherInto = none) (hs : s.logging.file = none) :
    LeadsTo (workAt w line c root) s made ↔ ∃ path rows,
      line.report.map (·.resolve s.tree.workingDirectory) = some path ∧
        FillsReport w c root path rows s.tree ∧
          (Report.write s.tree rows path).value.1 = made := by
  let Filling (found tree : FileTree) : Prop := ∃ path rows,
    line.report.map (·.resolve found.workingDirectory) = some path ∧
      FillsReport w c root path rows tree ∧ (Report.write tree rows path).value.1 = made
  refine (leadsTo_bind_iff (P := Filling) isQuiet_tree hs fun found s hs => ?_).trans
    (by simp [Filling])
  refine (leadsTo_bind_iff (P := fun _ tree => Filling found tree)
    (isQuiet_startCluster w line c.settings) hs fun _ s hs => ?_).trans
    (by simp [result_startCluster])
  have hrest : ∀ files, IsQuiet (do
      let files ← applyLimit files line.limit
      if line.isDryRun then dryRun w c line.isDebug files
      else summarize (← process w c (workersFor line c.settings)
        (line.report.map (·.resolve found.workingDirectory)) files)) := fun files =>
    (isQuiet_applyLimit files line.limit).bind fun kept => by
      rw [if_pos hdry]
      exact isQuiet_dryRun hprober line.isDebug kept
  rw [hgathers]
  exact (leadsTo_bind_quiet_iff (logsNowhere_filesFor hprober _) hs hrest).trans
    (leadsTo_filesFor_iff hprober (fun _ => Path.isDirect_of_map_resolve) hs)

theorem leadsTo_workFor_iff (hprober : ProbesOnly w settings) (hdry : line.isDryRun = true)
    (hgathers : line.gatherInto = none) (hs : s.logging.file = none) :
    LeadsTo (workFor w line settings profile root) s made ↔ profile.enabled = true ∧
      s.tree.pathExists root = .ok true ∧ ∃ path rows,
        line.report.map (·.resolve s.tree.workingDirectory) = some path ∧
          FillsReport w (contextIn w line settings profile s.tree) root path rows s.tree ∧
            (Report.write s.tree rows path).value.1 = made := by
  let Filling (found tree : FileTree) : Prop := ∃ path rows,
    line.report.map (·.resolve tree.workingDirectory) = some path ∧
      FillsReport w (contextIn w line settings profile found) root path rows tree ∧
        (Report.write tree rows path).value.1 = made
  let Placed (found tree : FileTree) : Prop :=
    found.pathExists root = .ok true ∧ Filling tree tree
  refine (leadsTo_bind_iff (P := fun _ tree => profile.enabled = true ∧ Placed tree tree)
    (isQuiet_print _) hs fun _ s hs => ?_).trans (by simp [Placed, Filling])
  by_cases henabled : profile.enabled = true
  · rw [if_neg (by simp [henabled])]
    refine (leadsTo_bind_iff (P := Placed) isQuiet_tree hs fun found s hs => ?_).trans
      (by simp [henabled])
    refine (leadsTo_bind_iff (P := fun there tree => there = true ∧ Filling tree tree)
      (isQuiet_orFail _ _) hs fun there s hs => ?_).trans (by simp [Placed])
    cases there with
    | false => simp [(isQuiet_stop _).not_leadsTo hs, Session.exit]
    | true =>
        rw [if_pos rfl, if_neg (by simp [hdry])]
        refine (leadsTo_bind_iff (P := Filling) isQuiet_tree hs fun found s hs => ?_).trans
          (by simp)
        exact leadsTo_workAt_iff (c := contextIn w line settings profile found) hprober hdry
          hgathers hs
  · rw [if_pos (by simp [henabled])]
    simp [(isQuiet_print _).not_leadsTo hs, henabled]

theorem isQuiet_settingsFor (w : World) (line : CommandLine) : IsQuiet (settingsFor w line) := by
  refine isQuiet_tree.bind fun tree => ?_
  split
  · exact isQuiet_fail _
  · exact isQuiet_orFail _ _

theorem result_settingsFor_iff (hs : s.logging.file = none) :
    (outcome (settingsFor w line) s).1 = .ok settings ↔
      settings? w line s.tree = some settings := by
  refine (result_bind_iff (R := fun found _ => settings? w line found = some settings)
    isQuiet_tree hs fun found s hs => ?_).trans (by simp)
  rcases htext : Settings.environmentFileText? found with _ | text
  · simp [settings?, htext]
  · simp only [settings?, htext, Option.bind_some, result_orFail_iff]
    rcases (Settings.load (overridesOf line) w.environment
      (EnvironmentFile.read w.environment text)).toExcept with issues | loaded <;>
      simp [Except.toOption]

theorem outcome_startLogging (hfile : settings.logFile = none) :
    outcome (startLogging settings) s =
      (.ok (), { s with logging := ⟨.from_ settings.logLevel, none⟩ }) := by
  have hname : LogThreshold.ofName? settings.logLevel.name = some (.from_ settings.logLevel) := by
    cases settings.logLevel <;> decide +kernel
  have hstart : LogSetup.start s.tree settings.logLevel.name settings.logFile
      LogFile.standardMaxBytes LogFile.standardBackups =
        .ok (⟨.from_ settings.logLevel, none⟩, s.tree) := by
    rw [LogSetup.start, hname, hfile]
  rw [startLogging, outcome_bind, outcome_tree]
  simp only [hstart]
  rfl

theorem isQuiet_loadProfile (path : Path) : IsQuiet (loadProfile path) := by
  refine isQuiet_tree.bind fun tree => ?_
  split
  · exact isQuiet_pure _
  · exact (isQuiet_printAll _).bind fun _ => isQuiet_stop _
  · exact isQuiet_fail _

theorem result_loadProfile_iff (hs : s.logging.file = none) :
    (outcome (loadProfile path) s).1 = .ok profile ↔
      ShowProfile.load s.tree path = .ok profile := by
  refine (result_bind_iff (R := fun found _ => ShowProfile.load found path = .ok profile)
    isQuiet_tree hs fun found s hs => ?_).trans (by simp)
  rcases hload : ShowProfile.load found path with e | loaded
  · have hended : ∀ x : Session ShowProfile, (∃ ending, (outcome x s).1 = .error ending) →
        ((outcome x s).1 = .ok profile ↔ Except.error e = .ok profile) := by
      rintro x ⟨ending, hx⟩
      simp [hx]
    cases e <;> exact hended _ ⟨_, rfl⟩
  · simp

theorem isQuiet_tryNames (profile : ShowProfile) (names : List String) :
    IsQuiet (tryNames profile names) :=
  (isQuiet_orFail _ _).bind fun items => isQuiet_printAll items

/-- With valid settings and a valid show, a dry run leads to the tree with the report it makes. -/
theorem leadsTo_target_iff (hprober : ProbesOnly w settings) (hdry : line.isDryRun = true)
    (hgathers : line.gatherInto = none) (hs : s.logging.file = none) :
    LeadsTo (match line.target with
      | .trial names => tryNames profile names
      | .place root => workFor w line settings profile root) s made ↔
    ∃ root, line.target = .place root ∧ profile.enabled = true ∧ s.tree.pathExists root = .ok true ∧
      ∃ path rows, line.report.map (·.resolve s.tree.workingDirectory) = some path ∧
        FillsReport w (contextIn w line settings profile s.tree) root path rows s.tree ∧
          (Report.write s.tree rows path).value.1 = made := by
  cases line.target with
  | trial names => simp [(isQuiet_tryNames profile names).not_leadsTo hs]
  | place root => simpa using leadsTo_workFor_iff hprober hdry hgathers hs

/-- A dry run leads to another tree when it makes a report, and not otherwise. -/
theorem leadsTo_ofRequest_iff (hdry : IsDryRun w line s.tree) (hs : s.logging.file = none) :
    LeadsTo (ofRequest w line) s made ↔ ∃ c root path rows,
      MakesReport w line s.tree c root path rows ∧
        (Report.write s.tree rows path).value.1 = made := by
  rcases hrun : outcome (settingsFor w line) s with ⟨ending | settings, next⟩
  · -- without valid settings nothing else is done
    have htree := ((isQuiet_settingsFor w line).keeps hs hrun).1
    refine iff_of_false (not_leadsTo_bind_of_error hrun htree) ?_
    rintro ⟨c, root, path, rows, hmakes, -⟩
    have hok := (result_settingsFor_iff hs).2 hmakes.settings
    rw [hrun] at hok
    cases hok
  · obtain ⟨htree, hs'⟩ := (isQuiet_settingsFor w line).keeps hs hrun
    have hsettings : settings? w line s.tree = some settings :=
      (result_settingsFor_iff hs).1 (by rw [hrun])
    have hprober : ProbesOnly w settings := hdry.prober settings hsettings
    rw [ofRequest, leadsTo_bind_of_ok hrun htree,
      leadsTo_bind_of_ok (outcome_startLogging (hdry.logFile settings hsettings)) rfl]
    -- logging has started without a file, so all that follows is as if it had not
    generalize hstarted : ({ next with logging := ⟨.from_ settings.logLevel, none⟩ }
      : SessionState) = ready
    have hready : ready.tree = s.tree := by rw [← hstarted, htree]
    have hfile : ready.logging.file = none := by rw [← hstarted]
    let Filling (profile : ShowProfile) (tree : FileTree) : Prop := ∃ root,
      line.target = .place root ∧ profile.enabled = true ∧ tree.pathExists root = .ok true ∧
        ∃ path rows, line.report.map (·.resolve tree.workingDirectory) = some path ∧
          FillsReport w (contextIn w line settings profile tree) root path rows tree ∧
            (Report.write tree rows path).value.1 = made
    refine (leadsTo_bind_iff (P := Filling) (isQuiet_loadProfile line.profile) hfile
      fun profile s hs => leadsTo_target_iff hprober hdry.isDryRun hdry.gathersNone hs).trans ?_
    simp only [result_loadProfile_iff hfile, hready, Filling]
    constructor
    · rintro
        ⟨profile, hprofile, root, htarget, henabled, hplace, path, rows, hreport, hfills, hmade⟩
      exact ⟨contextIn w line settings profile s.tree, root, path, rows,
        ⟨hsettings, hprofile, htarget, henabled, hplace, rfl, hreport, hfills⟩, hmade⟩
    · rintro ⟨c, root, path, rows, h, hmade⟩
      have hsame : settings = c.settings := Option.some.inj (hsettings.symm.trans h.settings)
      refine ⟨c.profile, h.profile, root, h.target, h.enabled, h.place, path, rows, h.report, ?_,
        hmade⟩
      rw [hsame, h.context]
      exact h.fills

end Session

namespace SessionOutcome

open Session

/-- A dry run leads to another tree when it makes a report, and not otherwise. -/
theorem tree_ofWords_iff {w : World} {words : List String} {tree made : FileTree}
    (hdry : ∀ line, CommandLine.ofWords words = .request line → IsDryRun w line tree)
    (hother : made ≠ tree) : (ofWords w words tree).tree = made ↔ ∃ line c root path rows,
      CommandLine.ofWords words = .request line ∧ MakesReport w line tree c root path rows ∧
        (Report.write tree rows path).value.1 = made := by
  unfold ofWords
  cases hwords : CommandLine.ofWords words with
  | help => exact iff_of_false hother.symm (by simp)
  | fault f => exact iff_of_false hother.symm (by simp)
  | request line =>
    have hleads : LeadsTo (ofRequest w line) (startState tree) made ↔ ∃ c root path rows,
        MakesReport w line tree c root path rows ∧ (Report.write tree rows path).value.1 = made :=
      leadsTo_ofRequest_iff (s := startState tree) (hdry line hwords) rfl
    have htree : (ofAction (ofRequest w line) tree).tree = made ↔
        LeadsTo (ofRequest w line) (startState tree) made := (and_iff_left hother).symm
    simp [htree, hleads]

/-- A dry run leaves the tree as it is if and only if it makes no report.  When it makes one, it
leads to the tree with the report: no file but that at the place of the report is another, and
elsewhere directories are made at most. -/
theorem tree_ofWords_dryRun (w : World) (words : List String) (tree : FileTree)
    (hdry : ∀ line, CommandLine.ofWords words = .request line → IsDryRun w line tree) :
    ((ofWords w words tree).tree = tree ↔ ∀ line c root path rows,
      CommandLine.ofWords words = .request line → ¬ MakesReport w line tree c root path rows) ∧
    ∀ line c root path rows, CommandLine.ofWords words = .request line →
      MakesReport w line tree c root path rows →
        (ofWords w words tree).tree = (Report.write tree rows path).value.1 ∧
          ∃ places : List Location,
            (∀ l ∈ places, (ofWords w words tree).tree.place? path = some l) ∧
              FileTree.ChangesOnlyAt places tree (ofWords w words tree).tree := by
  have hmade : ∀ line c root path rows, CommandLine.ofWords words = .request line →
      MakesReport w line tree c root path rows →
        (Report.write tree rows path).value.1 ≠ tree ∧
          (ofWords w words tree).tree = (Report.write tree rows path).value.1 := by
    intro line c root path rows hline hmakes
    have hdirect := Path.isDirect_of_map_resolve hmakes.report
    have hother : (Report.write tree rows path).value.1 ≠ tree :=
      (Report.write_ne_iff hdirect hmakes.fills.missing).2
        ⟨hmakes.fills.nonempty, hmakes.fills.canMake⟩
    exact ⟨hother, (tree_ofWords_iff hdry hother).2 ⟨line, c, root, path, rows, hline, hmakes, rfl⟩⟩
  refine ⟨⟨?_, ?_⟩, ?_⟩
  · intro hsame line c root path rows hline hmakes
    obtain ⟨hother, htree⟩ := hmade line c root path rows hline hmakes
    exact hother (htree.symm.trans hsame)
  · intro hnone
    refine Classical.byContradiction fun hother => ?_
    obtain ⟨line, c, root, path, rows, hline, hmakes, -⟩ := (tree_ofWords_iff hdry hother).1 rfl
    exact hnone line c root path rows hline hmakes
  · intro line c root path rows hline hmakes
    obtain ⟨-, htree⟩ := hmade line c root path rows hline hmakes
    rw [htree]
    exact ⟨rfl, Report.write_changesOnlyAt hmakes.fills.nonempty tree path⟩

/-! ### A dry run in a bare world

Its tools cannot be started, and nothing is set in its environment.  A plain dry run leaves the tree
as it is; with a report that is not there, the report is made. -/

def bareWorld : World :=
  { tools := ToolConduct.toolless, environment := [], today := .first, now := ⟨0, false⟩
    batchMicros := 0, clusterFault := none }

/-- A working directory that holds a profile and a recording. -/
def showTree : FileTree :=
  Report.recordingTree.plant (.ofString "show.json") (.file "\x7b\"name\": \"Show\"\x7d".toUTF8)

/-- The words of a dry run, and those that also name a report to be used. -/
def dryRunWords : List String := ["show.json", "a.wav", "--dry-run"]

def reportWords : List String := dryRunWords ++ ["--use-report", "plan.csv"]

/-- The command line of a dry run that uses a report, or none. -/
def dryRunLine (report : Option Path) : CommandLine :=
  { profile := .ofString "show.json", target := .place (.ofString "a.wav"), outputDirectory := none
    isDryRun := true, isDebug := false, gatherInto := none, report, limit := none, jobs := none
    isDistributed := false, logLevel := none, logFile := none }

theorem ofWords_dryRunWords : CommandLine.ofWords dryRunWords = .request (dryRunLine none) := by
  decide +kernel

theorem ofWords_reportWords :
    CommandLine.ofWords reportWords = .request (dryRunLine (some (.ofString "plan.csv"))) := by
  decide +kernel

theorem isDryRun_dryRunLine (report : Option Path) :
    IsDryRun bareWorld (dryRunLine report) showTree where
  isDryRun := rfl
  gathersNone := rfl
  logFile := by
    have hlog :
        ((settings? bareWorld (dryRunLine none) showTree).all (·.logFile.isNone)) = true := by
      decide +kernel
    have hsame : settings? bareWorld (dryRunLine report) showTree =
        settings? bareWorld (dryRunLine none) showTree := rfl
    intro settings hsettings
    rw [← hsame, hsettings] at hlog
    simpa using hlog
  prober := fun _ _ _ => rfl

/-- A dry run without a report leaves the tree as it is. -/
theorem tree_dryRunWords : (ofWords bareWorld dryRunWords showTree).tree = showTree := by
  refine (tree_ofWords_dryRun bareWorld dryRunWords showTree ?_).1.2 ?_
  · intro line hline
    rw [ofWords_dryRunWords] at hline
    cases hline
    exact isDryRun_dryRunLine none
  · intro line c root path files hline hmakes
    rw [ofWords_dryRunWords] at hline
    cases hline
    cases hmakes.report

/-- Not every dry run leaves the tree as it is: one that uses a report makes it. -/
theorem not_tree_ofWords_eq : ¬ ∀ (w : World) (words : List String) (tree : FileTree),
    (∀ line, CommandLine.ofWords words = .request line → IsDryRun w line tree) →
      (ofWords w words tree).tree = tree := by
  intro hkeeps
  have hsame := hkeeps bareWorld reportWords showTree fun line hline => by
    rw [ofWords_reportWords] at hline
    cases hline
    exact isDryRun_dryRunLine _
  have hmade : (ofWords bareWorld reportWords showTree).tree.entries ≠ showTree.entries := by
    decide +kernel
  exact hmade (congrArg FileTree.entries hsame)

end SessionOutcome

end BroadcastIntake
