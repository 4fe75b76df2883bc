import BroadcastIntake.Job.Run
import BroadcastIntake.Proofs.FileTree.Directories
import BroadcastIntake.Proofs.Outcome

/-!
# The course of a job

A job goes one of five ways from its start to its end, and its result tells which.  This holds
whatever the prober, the transcoder and the copier do, as long as each of them answers: the two
lemmas `ending_of_copying` and `ending_of_transcoding` say how a job ends from where it waits for
a copy or for the transcoder, and `ending_run` puts them together.

One kind of output is beyond the machine.  The directories above the output are made before the
transcoder is called, and a path that holds a null character has none: the job breaks down there
instead of copying its source.
-/

namespace BroadcastIntake

/-- Those that work for a job.  Each is given what it needs and the tree as it stands, and leaves a
tree and an answer; none of them breaks down. -/
structure Collaborators where
  probe : Path → FileTree → FileTree × ProbeInfo
  transcode : Path → Path → FilterChain → FileTree → FileTree × Except TranscodeFault Unit
  copy : Path → Path → FileTree → FileTree × Except CopyFault Unit

namespace Collaborators

/-- What comes of a wait of a job. -/
def reply (c : Collaborators) : JobRun.Replier := fun w tree =>
  match w.stage with
  | .probing =>
    let (left, probe) := c.probe w.job.source tree
    return ⟨left, some (.probed (.ok probe)), []⟩
  | .transcoding _ chain =>
    let (left, outcome) := c.transcode w.job.source w.job.output chain tree
    return ⟨left, some (.transcoded (outcome.mapError .fault)), []⟩
  | .copying _ | .abandoning =>
    let (left, outcome) := c.copy w.job.source w.job.output tree
    return ⟨left, some (.copied (outcome.mapError .fault)), []⟩

/-- The run of a job that nobody cancels. -/
def run (c : Collaborators) (job : Job) (tree : FileTree) : JobRun :=
  (JobRun.withReplies c.reply false job tree).value

/-- The filters for a job, once its source has been probed. -/
def chain (c : Collaborators) (job : Job) (tree : FileTree) : FilterChain :=
  (FilterChain.build job.options (c.probe job.source tree).2 job.fadeIn job.fadeOut
    job.source.name).value

/-- The transcode of a job, with the making of the directories above its output: the tree that is
left, and the text of what went wrong. -/
def transcoded (c : Collaborators) (job : Job) (tree : FileTree) :
    FileTree × Except String Unit :=
  match (c.probe job.source tree).1.makeDirectories job.output.parent with
  | (made, some e) => (made, .error e.message)
  | (made, none) =>
    let (left, outcome) := c.transcode job.source job.output (c.chain job tree) made
    (left, outcome.mapError TranscodeFault.message)

/-- The tree that the copier of a job finds. -/
def beforeCopy (c : Collaborators) (job : Job) (tree : FileTree) : FileTree :=
  if job.transcodes then
    (OutputFile.removePartial (c.transcoded job tree).1 job.output).value
  else (c.probe job.source tree).1

/-- The copy of the source of a job: the text of what went wrong. -/
def copied (c : Collaborators) (job : Job) (tree : FileTree) : Except String Unit :=
  (c.copy job.source job.output (c.beforeCopy job tree)).2.mapError CopyFault.message

end Collaborators

namespace JobState

/-- The ways of a job that is not transcoded. -/
def copyCourses : List (List JobState) :=
  [[idle, probing, directCopy, done], [idle, probing, directCopy, failed]]

/-- The ways of a job that is transcoded. -/
def transcodeCourses : List (List JobState) :=
  [[idle, probing, buildingFilters, transcoding, done],
   [idle, probing, buildingFilters, transcoding, fallbackCopy, done],
   [idle, probing, buildingFilters, transcoding, fallbackCopy, failed]]

end JobState

/-- The result tells how a job for `output` went, by what became of its transcode and of its
copy. -/
structure JobResult.Tells (r : JobResult) (output : Path) (transcodes : Bool)
    (transcode copy : Except String Unit) : Prop where
  listed : r.history ∈ JobState.copyCourses ++ JobState.transcodeCourses
  copies : r.history ∈ JobState.copyCourses ↔ transcodes = false
  state : r.history.getLast? = some r.state
  success : r.success = true ↔ r.state = .done
  output : r.success = true ↔ r.output = some output
  transcoded : r.transcoded = true ↔ [.transcoding, .done] <:+ r.history
  usedFallback : r.usedFallback = true ↔ [.fallbackCopy, .done] <:+ r.history
  /-- The error of a job that fell back has the text of the failed transcode in it, and says that
  the source was copied. -/
  fallbackError : r.usedFallback = true → ∃ failure error, transcode = .error failure ∧
    r.error = some error ∧ failure.toList <:+: error.toList ∧
      Job.fallbackMarker.toList <:+: error.toList
  /-- The error of a job that failed is the text of the failed copy. -/
  failedError : r.success = false → ∃ failure, copy = .error failure ∧ r.error = some failure

namespace Collaborators

/-- The warnings of a job before its transcode or copy. -/
def probeWarnings (c : Collaborators) (job : Job) (tree : FileTree) : List String :=
  WaitingJob.assumptionWarnings (c.probe job.source tree).2

/-- The result of a job, by what becomes of its transcode and of its copy. -/
def result (c : Collaborators) (job : Job) (tree : FileTree) : JobResult :=
  let warned := c.probeWarnings job tree
  let chain := c.chain job tree
  match job.transcodes, (c.transcoded job tree).2, c.copied job tree with
  | false, _, .ok () => .copied [.idle, .probing, .directCopy] warned job.output
  | false, _, .error text => .failure [.idle, .probing, .directCopy] warned text
  | true, .ok (), _ =>
    { JobResult.copied [.idle, .probing, .buildingFilters, .transcoding]
        (warned ++ chain.warnings) job.output with
      transcoded := true
      sourceDuration := (c.probe job.source tree).2.duration
      processedDuration := chain.outputDuration }
  | true, .error failure, .ok () =>
    { JobResult.copied [.idle, .probing, .buildingFilters, .transcoding, .fallbackCopy]
        (warned ++ chain.warnings) job.output with
      usedFallback := true
      error := some s!"Audio processing failed ({failure}), {Job.fallbackMarker}" }
  | true, .error _, .error text =>
    .failure [.idle, .probing, .buildingFilters, .transcoding, .fallbackCopy]
      (warned ++ chain.warnings) text

/-- The error after a copy in place of a transcode names the failure and says what was done. -/
theorem mentions_fallback (failure : String) :
    let error := s!"Audio processing failed ({failure}), {Job.fallbackMarker}"
    failure.toList <:+: error.toList ∧ Job.fallbackMarker.toList <:+: error.toList := by
  refine ⟨⟨"Audio processing failed (".toList, "), used copy fallback".toList, ?_⟩,
    ⟨"Audio processing failed (".toList ++ failure.toList ++ "), ".toList, [], ?_⟩⟩ <;>
  simp [Job.fallbackMarker, toString]

/-- The result of a job tells its course. -/
theorem result_tells (c : Collaborators) (job : Job) (tree : FileTree) :
    (c.result job tree).Tells job.output job.transcodes (c.transcoded job tree).2
      (c.copied job tree) := by
  unfold result
  rcases job.transcodes with _ | _
  · rcases c.copied job tree with text | _ <;> constructor <;>
      simp [JobResult.copied, JobResult.failure, JobState.copyCourses, List.suffix_cons_iff]
  · rcases (c.transcoded job tree).2 with failure | _
    · rcases c.copied job tree with text | _
      · constructor <;>
          simp [JobResult.failure, JobState.copyCourses, JobState.transcodeCourses,
            List.suffix_cons_iff]
      · constructor
        case fallbackError => exact fun _ => ⟨failure, _, rfl, rfl, mentions_fallback failure⟩
        all_goals
          simp [JobResult.copied, JobState.copyCourses, JobState.transcodeCourses,
            List.suffix_cons_iff]
    · constructor <;>
        simp [JobResult.copied, JobState.copyCourses, JobState.transcodeCourses,
          List.suffix_cons_iff]

end Collaborators

/-! ## From where a job waits to its end -/

namespace WaitingJob

/-- The result of a job that waits for a copy, by what becomes of the copy. -/
def copyEnd (w : WaitingJob) (failure : Option String) : Except String Unit → JobResult
  | .ok () => w.copyResult failure
  | .error text => .failure w.history w.warnings text

/-- A job after its transcode has failed. -/
def fallen (w : WaitingJob) (failure : String) : WaitingJob :=
  { w with stage := .copying (some failure), history := w.history ++ [.fallbackCopy] }

@[simp] theorem job_fallen (w : WaitingJob) (failure : String) : (w.fallen failure).job = w.job :=
  rfl

theorem value_fallBack (w : WaitingJob) (tree : FileTree) (failure : String) :
    (w.fallBack tree failure).value =
      ((OutputFile.removePartial tree w.job.output).value, .waits (w.fallen failure)) :=
  rfl

end WaitingJob

namespace Collaborators

section Ending

variable (c : Collaborators) {w : WaitingJob} {tree : FileTree} {calls : List ToolCall}

/-- A job that waits for a copy ends with it. -/
theorem ending_of_copying {failure : Option String} (hstage : w.stage = .copying failure)
    (n : Nat) :
    (JobRun.runFor c.reply WaitingJob.step false (n + 1) (.waits w) tree calls).value.ending =
      some (.finished (w.copyEnd failure
        ((c.copy w.job.source w.job.output tree).2.mapError CopyFault.message))) := by
  rcases hcopy : c.copy w.job.source w.job.output tree with ⟨left, fault | _⟩ <;>
    simp [JobRun.runFor, reply, WaitingJob.step, hstage, hcopy,
      WaitingJob.afterCopy, WaitingJob.finish, WaitingJob.copyEnd]

/-- A job that waits for the transcoder ends with it, or with the copy that takes its place. -/
theorem ending_of_transcoding {probe : ProbeInfo} {chain : FilterChain}
    (hstage : w.stage = .transcoding probe chain) (n : Nat) :
    (JobRun.runFor c.reply WaitingJob.step false (n + 2) (.waits w) tree calls).value.ending =
      some (.finished (match c.transcode w.job.source w.job.output chain tree with
        | (_, .ok ()) => w.transcodeResult probe chain
        | (left, .error fault) =>
          (w.fallen fault.message).copyEnd (some fault.message)
            ((c.copy w.job.source w.job.output
              (OutputFile.removePartial left w.job.output).value).2.mapError
                CopyFault.message))) := by
  rw [JobRun.runFor]
  rcases htranscode : c.transcode w.job.source w.job.output chain tree with ⟨left, fault | _⟩
  · have hcopying := @ending_of_copying c (w.fallen fault.message)
      (OutputFile.removePartial left w.job.output).value (calls ++ []) _ rfl n
    simpa [reply, WaitingJob.step, hstage, htranscode,
      WaitingJob.afterTranscode, WaitingJob.value_fallBack] using hcopying
  · simp [reply, WaitingJob.step, hstage, htranscode,
      WaitingJob.afterTranscode, WaitingJob.finish]

end Ending

/-! ## The whole run -/

/-- A job that waits for the transcoder. -/
def begun (c : Collaborators) (job : Job) (tree : FileTree) : WaitingJob :=
  ⟨job, .transcoding (c.probe job.source tree).2 (c.chain job tree),
    c.probeWarnings job tree ++ (c.chain job tree).warnings,
    [.idle, .probing, .buildingFilters, .transcoding]⟩

/-- A job that waits for a copy without a transcode before it. -/
def direct (c : Collaborators) (job : Job) (tree : FileTree) : WaitingJob :=
  ⟨job, .copying none, c.probeWarnings job tree, [.idle, .probing, .directCopy]⟩

/-- A run goes on from the step after the probe. -/
theorem ending_run_eq (c : Collaborators) (job : Job) (tree : FileTree) :
    (c.run job tree).ending =
      (let after := (job.start.value.afterProbe (c.probe job.source tree).1
          (c.probe job.source tree).2).value
       JobRun.runFor c.reply WaitingJob.step false 3 after.2 after.1 []).value.ending :=
  rfl

theorem ending_run_direct {c : Collaborators} {job : Job} {tree : FileTree}
    (hcopies : job.transcodes = false) :
    (c.run job tree).ending = some (.finished (c.result job tree)) := by
  have hafter : (job.start.value.afterProbe (c.probe job.source tree).1
      (c.probe job.source tree).2).value =
        ((c.probe job.source tree).1, .waits (direct c job tree)) := by
    simp [WaitingJob.afterProbe, Job.start, hcopies, WaitingJob.goOn, direct, probeWarnings]
  rw [ending_run_eq, hafter, ending_of_copying c rfl]
  unfold result copied beforeCopy
  rw [hcopies]
  rcases hcopy : (c.copy job.source job.output (c.probe job.source tree).1).2 with fault | _ <;>
    simp [direct, hcopy, WaitingJob.copyEnd, WaitingJob.copyResult]

theorem ending_run_transcoding {c : Collaborators} {job : Job} {tree made : FileTree}
    (htranscodes : job.transcodes = true)
    (hmade : (c.probe job.source tree).1.makeDirectories job.output.parent = (made, none)) :
    (c.run job tree).ending = some (.finished (c.result job tree)) := by
  have hafter : (job.start.value.afterProbe (c.probe job.source tree).1
      (c.probe job.source tree).2).value = (made, .waits (begun c job tree)) := by
    simp [WaitingJob.afterProbe, WaitingJob.beginTranscode, WaitingJob.sourceName, Job.start,
      htranscodes, hmade, WaitingJob.goOn, begun, chain, probeWarnings]
  rw [ending_run_eq, hafter, ending_of_transcoding c rfl]
  unfold result copied beforeCopy transcoded
  rw [htranscodes, hmade]
  rcases htranscode : c.transcode job.source job.output (c.chain job tree) made
    with ⟨left, fault | _⟩
  · rcases hcopy : (c.copy job.source job.output
        (OutputFile.removePartial left job.output).value).2 with fault' | _ <;>
      simp [begun, htranscode, hcopy, WaitingJob.copyEnd, WaitingJob.fallen,
        WaitingJob.copyResult]
  · simp [begun, htranscode, WaitingJob.transcodeResult]

theorem ending_run_unmade {c : Collaborators} {job : Job} {tree made : FileTree} {e : FileError}
    (htranscodes : job.transcodes = true)
    (hmade : (c.probe job.source tree).1.makeDirectories job.output.parent = (made, some e))
    (hsystem : e.fault.isSystem = true) :
    (c.run job tree).ending = some (.finished (c.result job tree)) := by
  have hafter : (job.start.value.afterProbe (c.probe job.source tree).1
      (c.probe job.source tree).2).value =
        ((OutputFile.removePartial made job.output).value,
          .waits ((begun c job tree).fallen e.message)) := by
    simp [WaitingJob.afterProbe, WaitingJob.beginTranscode, WaitingJob.sourceName, Job.start,
      htranscodes, hmade, hsystem, WaitingJob.value_fallBack, WaitingJob.fallen, begun, chain,
      probeWarnings]
  rw [ending_run_eq, hafter, ending_of_copying c rfl]
  unfold result copied beforeCopy transcoded
  rw [htranscodes, hmade]
  rcases hcopy : (c.copy job.source job.output
      (OutputFile.removePartial made job.output).value).2 with fault | _ <;>
    simp [begun, hcopy, WaitingJob.copyEnd, WaitingJob.fallen,
        WaitingJob.copyResult]

/-- A job whose output no directory can hold breaks down. -/
theorem ending_run_of_hasNull {c : Collaborators} {job : Job} {tree : FileTree}
    (htranscodes : job.transcodes = true) (hnull : job.output.parent.hasNull = true) :
    ∃ crash, (c.run job tree).ending = some (.crashed crash) := by
  have hmade := (c.probe job.source tree).1.makeDirectories_of_hasNull hnull
  refine ⟨.file ⟨.nullCharacter, job.output.parent.toString⟩, ?_⟩
  rw [ending_run_eq]
  simp [WaitingJob.afterProbe, WaitingJob.beginTranscode, Job.start, htranscodes, hmade,
    FileFault.isSystem, WaitingJob.finish]

/-- Every other job ends with its result. -/
theorem ending_run {c : Collaborators} {job : Job} {tree : FileTree}
    (hnull : job.transcodes = true → job.output.parent.hasNull = false) :
    (c.run job tree).ending = some (.finished (c.result job tree)) := by
  rcases htranscodes : job.transcodes with _ | _
  · exact ending_run_direct htranscodes
  · rcases hmade : (c.probe job.source tree).1.makeDirectories job.output.parent
      with ⟨made, _ | e⟩
    · exact ending_run_transcoding htranscodes hmade
    · exact ending_run_unmade htranscodes hmade
        (FileTree.isSystem_of_makeDirectories (hnull htranscodes) hmade)

/-- **The course of a job.**  Whatever the prober, the transcoder and the copier do for a job, it
ends with a result that tells its course, unless its source is to be transcoded into a directory
whose path holds a null character. -/
theorem run_tells_iff (c : Collaborators) (source output : Path) (options : ProcessingOptions)
    (asked : Option Bool) (fadeIn fadeOut : Binary64) (tree : FileTree) :
    let job := Job.ofOptions source output options asked fadeIn fadeOut
    (∃ result, (c.run job tree).ending = some (.finished result) ∧
        result.Tells output (asked.getD options.needsProcessing) (c.transcoded job tree).2
          (c.copied job tree)) ↔
      ¬ (asked.getD options.needsProcessing = true ∧ output.parent.hasNull = true) := by
  intro job
  constructor
  · rintro ⟨result, hending, -⟩ ⟨htranscodes, hnull⟩
    obtain ⟨crash, hcrash⟩ : ∃ crash, (c.run job tree).ending = some (.crashed crash) :=
      ending_run_of_hasNull htranscodes hnull
    rw [hcrash] at hending
    cases hending
  · intro hfree
    refine ⟨c.result job tree, ending_run fun htranscodes => ?_, c.result_tells job tree⟩
    exact Bool.eq_false_iff.2 fun hnull => hfree ⟨htranscodes, hnull⟩

/-- The job that is to transcode `a.wav` into a directory with a null character in its name. -/
def nullJob : Job :=
  .ofOptions ⟨0, ["a.wav"]⟩ ⟨0, ["out\x00", "a.mp3"]⟩ (.ofShow (.named "Show") none .first)
    (some true) 0 0

/-- Not every job ends with a result, even if all that work for it answer. -/
theorem not_run_finishes :
    ¬ ∀ (c : Collaborators) (job : Job) (tree : FileTree),
      ∃ result, (c.run job tree).ending = some (.finished result) := by
  intro hall
  let c : Collaborators :=
    { probe := fun _ tree => (tree, ⟨60, none, 1, false⟩)
      transcode := fun _ _ _ tree => (tree, .ok ())
      copy := fun _ _ tree => (tree, .ok ()) }
  obtain ⟨result, hending⟩ := hall c nullJob (.empty [])
  obtain ⟨crash, hcrash⟩ : ∃ crash, (c.run nullJob (.empty [])).ending = some (.crashed crash) :=
    ending_run_of_hasNull rfl (by decide)
  rw [hcrash] at hending
  cases hending

end Collaborators

end BroadcastIntake
