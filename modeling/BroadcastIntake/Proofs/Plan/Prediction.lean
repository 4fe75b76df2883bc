import BroadcastIntake.Proofs.Job.Calls
import BroadcastIntake.Proofs.OutputFile.Candidate

/-!
# A plan predicts the run

The command that is shown for a plan is the one that the job for its file issues.  Four things have
to agree for that:

* the plan that the job makes is the one that was shown, on any day if the name of the file has a
  date (`Plan.ofFile_of_day`);
* the job takes its options, its fades and its decision from that plan
  (`FileJob.prepare_of_takesOn`);
* the directory above the output is there when the transcoder is called, because it was made before
  the output was reserved and a prober removes no directory (`Surroundings.keeps_probe`);
* the calls of a job are those of its course (`JobRun.comes_of_probing`).

Only the last word of the command may differ: it names the path that was reserved.
-/

namespace BroadcastIntake

open FileTree (KeepsDirectories)

namespace Plan

/-! ## The same plan on another day -/

section Day

variable {source : Path} {profile : ShowProfile} {settings : Settings} {asked : Option Path}
  {today other : BroadcastDate} {plan : Plan}

/-- With a date read from the name, nothing in a plan depends on the day it is made. -/
theorem ofReading_of_date (pattern : Option FilePattern) (extraction : Option Extraction)
    (date : BroadcastDate) :
    ofReading source profile settings asked other pattern extraction (some date) =
      ofReading source profile settings asked today pattern extraction (some date) :=
  rfl

theorem ofFile_of_day (hplan : (ofFile source profile settings asked today).value = .ok plan)
    (hday : other = today ∨ plan.date.isSome = true) :
    (ofFile source profile settings asked other).value = .ok plan := by
  rcases hday with rfl | hdate
  · exact hplan
  obtain ⟨extraction, hextraction, read, hread, rfl⟩ := ofFile_eq_ok_iff.1 hplan
  obtain ⟨date, rfl⟩ := Option.isSome_iff_exists.1 hdate
  exact ofFile_eq_ok_iff.2 ⟨extraction, hextraction, _, hread, ofReading_of_date _ _ date⟩

end Day

/-! ## What is shown for a plan -/

/-- A command with another path in its last place. -/
def redirect (command : List String) (output : Path) : List String :=
  command.dropLast ++ [output.toString]

/-- The warnings about the filters that are shown for a plan. -/
def shownWarnings (plan : Plan) (settings : Settings) (probe : ProbeInfo) : List String :=
  ((plan.describe settings probe).value.1.map FilterChain.warnings).getD []

/-- The commands that are shown for a plan, with another path for the output: none or one. -/
def shownCommands (plan : Plan) (settings : Settings) (probe : ProbeInfo) (output : Path) :
    List (List String) :=
  if plan.needsProcessing then [redirect (plan.describe settings probe).value.2 output] else []

end Plan

namespace FilterChain

theorem redirect_command (c : FilterChain) (transcoder : String) (input output found : Path) :
    Plan.redirect (c.command transcoder input output) found =
      c.command transcoder input found := by
  let front := [transcoder, "-hide_banner", "-loglevel", "warning", "-i", input.toString] ++
    c.args ++ ["-y"]
  have hcommand : ∀ path : Path, c.command transcoder input path = front ++ [path.toString] := by
    intro path
    simp [command, front]
  rw [hcommand, hcommand, Plan.redirect, List.dropLast_concat]

end FilterChain

namespace Plan

variable {plan : Plan} {settings : Settings} {probe : ProbeInfo}

/-- The filters for the file of a plan. -/
def filters (plan : Plan) (settings : Settings) (probe : ProbeInfo) : FilterChain :=
  (FilterChain.build plan.options probe settings.fadeIn settings.fadeOut plan.source.name).value

theorem value_describe : (plan.describe settings probe).value =
    if plan.needsProcessing then
      (some (plan.filters settings probe),
        (plan.filters settings probe).command settings.transcoder plan.source plan.output)
    else (none, []) := by
  cases hneeds : plan.needsProcessing <;> simp [describe, hneeds, filters]

theorem shownCommands_eq (output : Path) : plan.shownCommands settings probe output =
    if plan.needsProcessing then
      [(plan.filters settings probe).command settings.transcoder plan.source output]
    else [] := by
  cases hneeds : plan.needsProcessing <;>
    simp [shownCommands, value_describe, hneeds, FilterChain.redirect_command]

theorem shownWarnings_eq : plan.shownWarnings settings probe =
    if plan.needsProcessing then (plan.filters settings probe).warnings else [] := by
  cases hneeds : plan.needsProcessing <;> simp [shownWarnings, value_describe, hneeds]

/-- With the output of the plan itself, what is shown is shown unchanged. -/
theorem shownCommands_output :
    plan.shownCommands settings probe plan.output =
      if plan.needsProcessing then [(plan.describe settings probe).value.2] else [] := by
  rw [shownCommands_eq, value_describe]
  split <;> rfl

end Plan

namespace Surroundings

/-- A prober removes no directory. -/
theorem keeps_probe (s : Surroundings) (tree : FileTree) (path : Path) :
    KeepsDirectories tree (s.probe tree path).value.1 := by
  have hperform : ∀ (conduct : ToolConduct) (call : ToolCall),
      KeepsDirectories tree (conduct.perform call tree).1 := by
    intro conduct call
    unfold ToolConduct.perform
    split
    · exact .refl tree
    · split
      · rename_i hwrite
        obtain ⟨l, hplace, -, -⟩ := FileTree.write_eq_ok_iff.1 hwrite
        exact (FileTree.write_changesOnlyAt hplace hwrite).1.keeps
      · exact .refl tree
  have hkeeps := hperform (s.tools (s.prober.call path)) (s.prober.call path)
  unfold probe
  dsimp only
  split <;> rename_i hended <;> rw [hended] at hkeeps <;> exact hkeeps

theorem call_probe (s : Surroundings) (tree : FileTree) (path : Path) :
    (s.probe tree path).value.2.2 = s.prober.call path := by
  unfold probe
  dsimp only
  split <;> rfl

end Surroundings

namespace FileJob

/-- A file is taken on: it has an extension that is taken, it is there, and a path for the output
of its plan is reserved. -/
structure TakesOn (settings : Settings) (plan : Plan) (tree reserved : FileTree) (output : Path) :
    Prop where
  extension : settings.extensions.contains (Text.lower plan.source.suffix) = true
  isFile : tree.isFile plan.source = .ok true
  reserves : (OutputFile.reserve tree plan.output).value = (reserved, .ok output)

section Prepare

variable {c : ShowContext} {source output : Path} {plan : Plan} {tree reserved : FileTree}

theorem checkSource_eq_ok_iff : checkSource c source tree = .ok () ↔
    c.settings.extensions.contains (Text.lower source.suffix) = true ∧
      tree.isFile source = .ok true := by
  unfold checkSource
  dsimp only
  split
  · simp_all
  · split <;> simp_all

theorem prepare_of_takesOn
    (hplan : (Plan.ofFile source c.profile c.settings c.outputDirectory c.today).value = .ok plan)
    (htakes : TakesOn c.settings plan tree reserved output) :
    (prepare c source tree).value = (reserved, .ok (ofPlan c plan output)) := by
  obtain ⟨hextension, hfile, hreserves⟩ := htakes
  rw [(Plan.ofFile_eq_ok hplan).1] at hextension hfile
  have hcheck := checkSource_eq_ok_iff.2 ⟨hextension, hfile⟩
  exact prepare_eq_ok_iff.2 ⟨hcheck, reserve_eq_ok_iff.2 ⟨plan, output, hplan, hreserves, rfl⟩⟩

theorem prepare_of_not_takesOn
    (hplan : (Plan.ofFile source c.profile c.settings c.outputDirectory c.today).value = .ok plan)
    (htakes : ¬ ∃ reserved output, TakesOn c.settings plan tree reserved output) :
    ∃ left e, (prepare c source tree).value = (left, .error e) := by
  rcases hprepare : (prepare c source tree).value with ⟨left, e | job⟩
  · exact ⟨left, e, rfl⟩
  · obtain ⟨hcheck, hreserve⟩ := prepare_eq_ok_iff.1 hprepare
    obtain ⟨plan', output, hplan', hreserves, -⟩ := reserve_eq_ok_iff.1 hreserve
    obtain rfl : plan' = plan := Except.ok.inj (hplan'.symm.trans hplan)
    obtain ⟨hextension, hfile⟩ := checkSource_eq_ok_iff.1 hcheck
    rw [← (Plan.ofFile_eq_ok hplan).1] at hextension hfile
    exact absurd ⟨left, output, hextension, hfile, hreserves⟩ htakes

end Prepare

end FileJob

/-! ## The run -/

namespace JobRun

variable {c : ShowContext} {source : Path} {tools : Toolbox} {plan : Plan} {probe : ProbeInfo}
  {tree : FileTree}

/-- A file that is not taken on is met by no tool. -/
theorem calls_of_not_takesOn (s : Surroundings) (cancels : Bool)
    (hplan : (Plan.ofFile source c.profile c.settings c.outputDirectory c.today).value = .ok plan)
    (htakes : ¬ ∃ reserved output, FileJob.TakesOn c.settings plan tree reserved output) :
    (ofFile s cancels c source tree).value.calls = [] := by
  obtain ⟨left, e, hprepare⟩ := FileJob.prepare_of_not_takesOn hplan htakes
  cases e <;> simp [ofFile, FileJob.start, hprepare]

/-- A file that is taken on is probed, and then what is shown for its plan is run. -/
theorem comes_of_takesOn {reserved : FileTree} {output : Path} (cancels : Bool)
    (hplan : (Plan.ofFile source c.profile c.settings c.outputDirectory c.today).value = .ok plan)
    (htakes : FileJob.TakesOn c.settings plan tree reserved output)
    (hprobe : ((Surroundings.ofSettings c.settings tools).probe reserved source).value.2.1 =
      some (.ok probe)) :
    let s := Surroundings.ofSettings c.settings tools
    (ofFile s cancels c source tree).value.Comes
      (s.prober.call source ::
        (plan.shownCommands c.settings probe output).map (⟨·, s.transcoder.limit⟩))
      (WaitingJob.assumptionWarnings probe ++ plan.shownWarnings c.settings probe) := by
  intro s
  obtain rfl := (Plan.ofFile_eq_ok hplan).1
  let w : WaitingJob := ⟨FileJob.ofPlan c plan output, .probing, [], [.idle, .probing]⟩
  have hstart : (FileJob.start c plan.source tree).value = (reserved, .waits w) := by
    simp [FileJob.start, FileJob.prepare_of_takesOn hplan htakes, Job.start, w]
  have hrun : (ofFile s cancels c plan.source tree).value =
      (runFor s.reply FileJob.step cancels 4 (.waits w) reserved []).value := by
    simp [ofFile, hstart, stepLimit]
  have habove := (s.keeps_probe reserved plan.source).leadsToDirectory
    (OutputFile.reserve_found htakes.reserves).1
  have hprobed : (s.probe reserved plan.source).value =
      ((s.probe reserved plan.source).value.1, some (.ok probe), s.prober.call plan.source) := by
    rw [← hprobe, ← s.call_probe reserved plan.source]
  have hcomes := @comes_of_probing s cancels w reserved [] 2 _ probe rfl hprobed habove
  rw [hrun, Plan.shownCommands_eq, Plan.shownWarnings_eq]
  have htranscodes : w.job.transcodes = plan.needsProcessing := rfl
  simp only [htranscodes] at hcomes
  cases hneeds : plan.needsProcessing <;> simp only [hneeds] at hcomes <;> exact hcomes

end JobRun

namespace Plan

/-- **A plan predicts the run.**  When a file is taken on, the tools are called for it as they were
shown for its plan: the prober first, and then the transcoder once or not at all, with the shown
command up to its last word, which names the path that was reserved.  That path is the one of the
plan unless it was taken.  A file that is not taken on is met by no tool. -/
theorem predicts_run (c : ShowContext) (source : Path) (tools : Toolbox) (cancels : Bool)
    (tree : FileTree) {today : BroadcastDate} {plan : Plan} {probe : ProbeInfo}
    (hplan : (ofFile source c.profile c.settings c.outputDirectory today).value = .ok plan)
    (hday : c.today = today ∨ plan.date.isSome = true)
    (hprobe : ∀ reserved output, FileJob.TakesOn c.settings plan tree reserved output →
      ((Surroundings.ofSettings c.settings tools).probe reserved source).value.2.1 =
        some (.ok probe)) :
    let s := Surroundings.ofSettings c.settings tools
    let run := (JobRun.ofFile s cancels c source tree).value
    (∀ reserved output, FileJob.TakesOn c.settings plan tree reserved output →
      run.Comes
        (s.prober.call source ::
          (plan.shownCommands c.settings probe output).map (⟨·, some c.settings.transcodeTimeout⟩))
        (WaitingJob.assumptionWarnings probe ++ plan.shownWarnings c.settings probe) ∧
      (output = plan.output ↔
        (tree.makeDirectories plan.output.parent).1.pathExists plan.output ≠ .ok true)) ∧
    plan.shownCommands c.settings probe plan.output =
      (if plan.needsProcessing then [(plan.describe c.settings probe).value.2] else []) ∧
    ((¬ ∃ reserved output, FileJob.TakesOn c.settings plan tree reserved output) →
      run.calls = []) := by
  intro s run
  have hplan' : (ofFile source c.profile c.settings c.outputDirectory c.today).value = .ok plan :=
    ofFile_of_day hplan hday
  refine ⟨fun reserved output htakes => ⟨?_, ?_⟩, shownCommands_output, fun htakes => ?_⟩
  · exact JobRun.comes_of_takesOn cancels hplan' htakes (hprobe reserved output htakes)
  · exact (OutputFile.reserve_found htakes.reserves).2
  · exact JobRun.calls_of_not_takesOn s cancels hplan' htakes

/-- A show whose files become `mp3` files. -/
def mp3Show : ShowContext :=
  { ShowContext.named "Show" with
    profile := { ShowProfile.named "Show" with
      audio := { AudioSettings.none with format := "mp3" } } }

/-- The plan for a file of that show. -/
def mp3Plan (source : Path) : Plan :=
  ofReading source mp3Show.profile mp3Show.settings none mp3Show.today none none none

theorem ofFile_mp3Show (source : Path) :
    (ofFile source mp3Show.profile mp3Show.settings mp3Show.outputDirectory mp3Show.today).value =
      .ok (mp3Plan source) :=
  rfl

/-- Without tools nothing is known about a file. -/
theorem probe_toolless (settings : Settings) (tree : FileTree) (source : Path) :
    ((Surroundings.ofSettings settings ToolConduct.toolless).probe tree source).value.2.1 =
      some (.ok (.assumed settings.assumedDuration)) :=
  rfl

/-- A recording goes as its plan shows, into a sibling of the output that is taken. -/
theorem recording_goes_as_planned :
    let source : Path := ⟨0, ["a.wav"]⟩
    let tree : FileTree := ⟨[], [(["a.wav"], .file ⟨#[1]⟩), (["Output"], .directory),
      (["Output", "Show.mp3"], .file ⟨#[2]⟩)]⟩
    (JobRun.ofFile (.ofSettings mp3Show.settings ToolConduct.toolless) false mp3Show source
        tree).value.calls =
      [(Surroundings.ofSettings mp3Show.settings ToolConduct.toolless).prober.call source,
        ⟨["ffmpeg", "-hide_banner", "-loglevel", "warning", "-i", "a.wav",
          "-codec:a", "libmp3lame", "-y", "Output/Show_1.mp3"],
          some mp3Show.settings.transcodeTimeout⟩] := by
  intro source tree
  let output : Path := ⟨0, ["Output", "Show_1.mp3"]⟩
  have hfound : (OutputFile.reserve tree (mp3Plan source).output).value.2.toOption =
      some output := by decide +kernel
  have htakes : FileJob.TakesOn mp3Show.settings (mp3Plan source) tree _ output :=
    ⟨by decide +kernel, rfl, Outcome.eq_mk_ok_of_toOption hfound⟩
  have hrun := ((predicts_run mp3Show source ToolConduct.toolless false tree
    (ofFile_mp3Show source) (.inl rfl) fun reserved _ _ =>
      probe_toolless mp3Show.settings reserved source).1 _ output htakes).1.calls
  have hcommands : (mp3Plan source).shownCommands mp3Show.settings
      (.assumed mp3Show.settings.assumedDuration) output =
      [["ffmpeg", "-hide_banner", "-loglevel", "warning", "-i", "a.wav",
        "-codec:a", "libmp3lame", "-y", "Output/Show_1.mp3"]] := by
    decide +kernel
  simpa only [hcommands, List.map_cons, List.map_nil] using hrun

/-- Not every file whose plan shows a command is transcoded with it. -/
theorem not_run_issues_command :
    ¬ ∀ (c : ShowContext) (source : Path) (tools : Toolbox) (tree : FileTree) (plan : Plan)
        (probe : ProbeInfo),
      (ofFile source c.profile c.settings c.outputDirectory c.today).value = .ok plan →
      (∀ tree, ((Surroundings.ofSettings c.settings tools).probe tree source).value.2.1 =
        some (.ok probe)) →
      plan.needsProcessing = true →
      ∃ call ∈ (JobRun.ofFile (.ofSettings c.settings tools) false c source tree).value.calls,
        call.command.dropLast = (plan.describe c.settings probe).value.2.dropLast := by
  intro hall
  let source : Path := ⟨0, ["a.txt"]⟩
  let tree : FileTree := ⟨[], [(["a.txt"], .file ⟨#[1]⟩)]⟩
  obtain ⟨call, hcall, -⟩ := hall mp3Show source ToolConduct.toolless tree (mp3Plan source) _
    (ofFile_mp3Show source) (fun tree => probe_toolless .standard tree source) (by decide +kernel)
  have hextension : Settings.standard.extensions.contains (Text.lower source.suffix) = false := by
    decide +kernel
  have hcalls : (JobRun.ofFile (.ofSettings mp3Show.settings ToolConduct.toolless) false mp3Show
      source tree).value.calls = [] :=
    JobRun.calls_of_not_takesOn _ _ (ofFile_mp3Show source) fun ⟨_, _, htakes⟩ =>
      Bool.false_ne_true (hextension.symm.trans htakes.extension)
  rw [hcalls] at hcall
  cases hcall

end Plan

end BroadcastIntake
