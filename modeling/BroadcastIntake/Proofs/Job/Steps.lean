import BroadcastIntake.Job.File
import BroadcastIntake.Proofs.Extraction
import BroadcastIntake.Proofs.OutputFile

/-!
# Steps of a job for a file

What one step of a job can do, said once: `start_effect` for the step that makes a file into a job,
and `step_effect` for every later one.  Both list all endings of the step with the state of the
output file in each, so that no invariant has to look into the machine again.
-/

namespace BroadcastIntake

open FileTree (ChangesOnlyAt)

/-- The job has ended without an output. -/
def JobEnd.Fails : JobEnd → Prop
  | .finished result => result.success = false ∧ result.output = none
  | .cancelled | .crashed _ => True

/-- The result names the output of a job that succeeded, and says whether it was transcoded. -/
structure JobResult.Delivers (result : JobResult) (output : Path) (transcoded : Bool) : Prop where
  success : result.success = true
  output : result.output = some output
  transcoded : result.transcoded = transcoded

theorem JobResult.failure_fails (history : List JobState) (warnings : List String)
    (error : String) : (JobEnd.finished (.failure history warnings error)).Fails :=
  ⟨rfl, rfl⟩

namespace WaitingJob

theorem transcodeResult_delivers (w : WaitingJob) (probe : ProbeInfo) (chain : FilterChain) :
    (w.transcodeResult probe chain).Delivers w.job.output true :=
  ⟨rfl, rfl, rfl⟩

theorem copyResult_delivers (w : WaitingJob) (failure : Option String) :
    (w.copyResult failure).Delivers w.job.output false := by
  cases failure <;> exact ⟨rfl, rfl, rfl⟩

end WaitingJob

namespace FileJob

/-! ## The first step -/

/-- What the first step for a file comes to. -/
inductive StartEffect (source : Path) (tree : FileTree) : FileTree × JobProgress → Prop
  /-- The source is a file, an output is reserved, and the job waits for the prober. -/
  | begins (reserved : FileTree) (w : WaitingJob) (place : Location)
      (hsource : ∃ content, tree.read source = .ok content) (hjob : w.job.source = source)
      (hstage : w.stage = .probing)
      (hreserves : OutputFile.Reserves tree reserved w.job.output place) :
      StartEffect source tree (reserved, .waits w)
  /-- There is no job for the file, and no file is touched. -/
  | ends (left : FileTree) (ending : JobEnd) (hfails : ending.Fails)
      (hframe : ChangesOnlyAt [] tree left) : StartEffect source tree (left, .ended ending)

theorem checkSource_eq_ok {c : ShowContext} {source : Path} {tree : FileTree}
    (hcheck : checkSource c source tree = .ok ()) : ∃ content, tree.read source = .ok content := by
  unfold checkSource at hcheck
  dsimp only at hcheck
  split at hcheck
  · cases hcheck
  · split at hcheck
    · rename_i hfile
      exact FileTree.isFile_eq_true_iff.1 hfile
    · cases hcheck
    · cases hcheck

/-- A job is made from the plan for a file, with the path that was reserved for its output. -/
theorem reserve_eq_ok_iff {c : ShowContext} {source : Path} {tree reserved : FileTree} {job : Job} :
    (reserve c source tree).value = (reserved, .ok job) ↔
      ∃ plan output,
        (Plan.ofFile source c.profile c.settings c.outputDirectory c.today).value = .ok plan ∧
          (OutputFile.reserve tree plan.output).value = (reserved, .ok output) ∧
            ofPlan c plan output = job := by
  constructor
  · intro hreserve
    unfold reserve at hreserve
    simp only [Logged.value_bind] at hreserve
    split at hreserve
    · simp at hreserve
    · rename_i plan hplan
      simp only [Logged.value_bind] at hreserve
      split at hreserve
      · rename_i output hfound
        simp only [Logged.value_pure, Prod.mk.injEq, Except.ok.injEq] at hreserve
        obtain ⟨rfl, rfl⟩ := hreserve
        exact ⟨plan, output, hplan, hfound, rfl⟩
      · simp at hreserve
      · simp at hreserve
  · rintro ⟨plan, output, hplan, hfound, rfl⟩
    simp [reserve, hplan, hfound]

theorem prepare_eq_ok_iff {c : ShowContext} {source : Path} {tree prepared : FileTree}
    {job : Job} :
    (prepare c source tree).value = (prepared, .ok job) ↔
      checkSource c source tree = .ok () ∧
        (reserve c source tree).value = (prepared, .ok job) := by
  unfold prepare
  rcases checkSource c source tree with e | _ <;> simp

theorem reserve_ok {c : ShowContext} {source : Path} {tree reserved : FileTree} {job : Job}
    (hreserve : (reserve c source tree).value = (reserved, .ok job)) :
    job.source = source ∧ ∃ place, OutputFile.Reserves tree reserved job.output place := by
  obtain ⟨plan, output, hplan, hfound, rfl⟩ := reserve_eq_ok_iff.1 hreserve
  exact ⟨(Plan.ofFile_eq_ok hplan).1, OutputFile.reserve_ok hfound⟩

theorem reserve_error {c : ShowContext} {source : Path} {tree left : FileTree} {e : PrepareError}
    (hreserve : (reserve c source tree).value = (left, .error e)) :
    ChangesOnlyAt [] tree left := by
  unfold reserve at hreserve
  simp only [Logged.value_bind] at hreserve
  split at hreserve
  · simp only [Logged.value_pure, Prod.mk.injEq] at hreserve
    rw [← hreserve.1]
    exact .refl [] tree
  · simp only [Logged.value_bind] at hreserve
    split at hreserve
    · simp at hreserve
    all_goals
      rename_i hfound
      simp only [Logged.value_pure, Prod.mk.injEq] at hreserve
      rw [← hreserve.1]
      exact OutputFile.reserve_error hfound

theorem prepare_ok {c : ShowContext} {source : Path} {tree prepared : FileTree} {job : Job}
    (hprepare : (prepare c source tree).value = (prepared, .ok job)) :
    (∃ content, tree.read source = .ok content) ∧ job.source = source ∧
      ∃ place, OutputFile.Reserves tree prepared job.output place := by
  obtain ⟨hcheck, hreserve⟩ := prepare_eq_ok_iff.1 hprepare
  exact ⟨checkSource_eq_ok hcheck, reserve_ok hreserve⟩

theorem prepare_error {c : ShowContext} {source : Path} {tree left : FileTree} {e : PrepareError}
    (hprepare : (prepare c source tree).value = (left, .error e)) :
    ChangesOnlyAt [] tree left := by
  unfold prepare at hprepare
  split at hprepare
  · simp only [Logged.value_pure, Prod.mk.injEq] at hprepare
    rw [← hprepare.1]
    exact .refl [] tree
  · exact reserve_error hprepare

/-- The first step reserves an output for a file that is there, or touches no file. -/
theorem start_effect (c : ShowContext) (source : Path) (tree : FileTree) :
    StartEffect source tree (start c source tree).value := by
  unfold start
  simp only [Logged.value_bind]
  split
  · rename_i prepared job hprepare
    obtain ⟨hsource, hjob, place, hreserves⟩ := prepare_ok hprepare
    exact .begins prepared _ place hsource hjob rfl hreserves
  · rename_i hprepare
    exact .ends _ _ (JobResult.failure_fails _ _ _) (prepare_error hprepare)
  · rename_i hprepare
    exact .ends _ _ trivial (prepare_error hprepare)

/-! ## Later steps -/

/-- What a later step of a job comes to, whose output has the given place. -/
inductive StepEffect (w : WaitingJob) (event : JobEvent) (place : Location) (tree : FileTree) :
    FileTree × JobProgress → Prop
  /-- The event is not one that the job waits for. -/
  | ignores : StepEffect w event place tree (tree, .waits w)
  /-- The prober has answered, and the job waits for the transcoder or a copy. -/
  | goesOn (changed : FileTree) (next : WaitingJob) (hjob : next.job = w.job)
      (hfrom : w.stage = .probing) (hto : next.stage.isCopying = true → next.stage = .copying none)
      (hframe : ChangesOnlyAt [] tree changed) :
      StepEffect w event place tree (changed, .waits next)
  /-- The transcode has failed, its output is removed, and the job waits for a copy. -/
  | fallsBack (changed : FileTree) (next : WaitingJob) (failure : String)
      (hjob : next.job = w.job) (hfrom : w.stage.isCopying = false)
      (hto : next.stage = .copying (some failure))
      (hframe : ChangesOnlyAt [place] tree changed)
      (hgone : ∀ content, changed.get? place ≠ some (.file content)) :
      StepEffect w event place tree (changed, .waits next)
  /-- The job is cancelled and waits for a copy to end. -/
  | abandons (hfrom : w.stage.isCopying = true) :
      StepEffect w event place tree (tree, .waits { w with stage := .abandoning })
  /-- The transcode has succeeded. -/
  | transcodes (result : JobResult) (hfrom : w.stage.isCopying = false)
      (hdelivers : result.Delivers w.job.output true) :
      StepEffect w event place tree (tree, .ended (.finished result))
  /-- The copy has succeeded. -/
  | copies (result : JobResult) (hfrom : w.stage.isCopying = true)
      (hevent : event = .copied (.ok ())) (hdelivers : result.Delivers w.job.output false) :
      StepEffect w event place tree (tree, .ended (.finished result))
  /-- The job has ended without an output, and no file stands in its place. -/
  | fails (left : FileTree) (ending : JobEnd) (hfails : ending.Fails)
      (hframe : ChangesOnlyAt [place] tree left)
      (hgone : ∀ content, left.get? place ≠ some (.file content)) :
      StepEffect w event place tree (left, .ended ending)

section Later

variable {w : WaitingJob} {event : JobEvent} {tree changed : FileTree} {place : Location}

theorem step_of_waits {next : WaitingJob}
    (hstep : (w.step event tree).value = (changed, .waits next)) :
    (step w event tree).value = (changed, .waits next) := by
  simp [step, hstep]

theorem step_of_success {result : JobResult}
    (hstep : (w.step event tree).value = (changed, .ended (.finished result)))
    (hsuccess : result.success = true) :
    (step w event tree).value = (changed, .ended (.finished result)) := by
  simp [step, hstep, settle, hsuccess]

/-- Settling a job that failed removes its output. -/
theorem settle_of_fails {job : Job} {ending : JobEnd} (hfails : ending.Fails) :
    (settle job tree ending).value = (OutputFile.removePartial tree job.output).value := by
  cases ending with
  | finished result =>
      have hfailed : result.success = false := hfails.1
      simp [settle, hfailed]
  | cancelled => rfl
  | crashed crash => rfl

theorem step_of_failure {ending : JobEnd} (hplace : tree.place? w.job.output = some place)
    (hstep : (w.step event tree).value = (changed, .ended ending)) (hfails : ending.Fails)
    (hframe : ChangesOnlyAt [place] tree changed) :
    StepEffect w event place tree (step w event tree).value := by
  have hvalue : (step w event tree).value =
      ((OutputFile.removePartial changed w.job.output).value, .ended ending) := by
    simp [step, hstep, settle_of_fails hfails]
  obtain ⟨hremoved, hgone⟩ := OutputFile.removePartial_spec (hframe.place? hplace)
  rw [hvalue]
  exact .fails _ ending hfails (hframe.trans hremoved) hgone

/-- The step in which a transcode is given up. -/
theorem step_of_fallBack (u : WaitingJob) (made : FileTree) (failure : String)
    (hjob : u.job = w.job) (hfrom : w.stage.isCopying = false)
    (hplace : tree.place? w.job.output = some place) (hframe : ChangesOnlyAt [] tree made)
    (hstep : (w.step event tree).value = (u.fallBack made failure).value) :
    StepEffect w event place tree (step w event tree).value := by
  have hvalue : (w.step event tree).value =
      ((OutputFile.removePartial made w.job.output).value,
        .waits { u with
          stage := .copying (some failure)
          history := u.history ++ [.fallbackCopy] }) := by
    rw [hstep, ← hjob]
    rfl
  obtain ⟨hremoved, hgone⟩ := OutputFile.removePartial_spec (hframe.place? hplace)
  rw [step_of_waits hvalue]
  exact .fallsBack _ _ failure hjob hfrom rfl (hframe.of_nil.trans hremoved) hgone

/-- The step after the probe. -/
theorem step_of_probe (probe : ProbeInfo) (hplace : tree.place? w.job.output = some place)
    (hstage : w.stage = .probing)
    (hstep : (w.step event tree).value = (w.afterProbe tree probe).value) :
    StepEffect w event place tree (step w event tree).value := by
  by_cases htranscodes : w.job.transcodes = true
  · have hmade := tree.makeDirectories_changesOnlyAt w.job.output.parent
    simp only [WaitingJob.afterProbe, htranscodes, if_true, WaitingJob.beginTranscode,
      Logged.value_bind] at hstep
    split at hstep
    · rename_i hdirectories
      rw [hdirectories] at hmade
      rw [step_of_waits hstep]
      exact .goesOn _ _ rfl hstage (by simp [JobStage.isCopying]) hmade
    · -- a directory that cannot be made counts as a failed transcode, or is a crash
      rename_i made e hdirectories
      rw [hdirectories] at hmade
      split at hstep
      · refine step_of_fallBack _ made _ ?_ (by simp [hstage, JobStage.isCopying]) hplace hmade
          hstep
        rfl
      · exact step_of_failure hplace hstep trivial hmade.of_nil
  · simp only [WaitingJob.afterProbe, htranscodes] at hstep
    rw [step_of_waits hstep]
    exact .goesOn _ _ rfl hstage (by simp) (.refl [] tree)

theorem step_of_transcode {probe : ProbeInfo} {chain : FilterChain}
    (outcome : Except TranscodeError Unit) (hplace : tree.place? w.job.output = some place)
    (hstage : w.stage = .transcoding probe chain)
    (hstep : (w.step event tree).value = (w.afterTranscode tree probe chain outcome).value) :
    StepEffect w event place tree (step w event tree).value := by
  have hfrom : w.stage.isCopying = false := by simp [hstage, JobStage.isCopying]
  rcases outcome with (fault | crash) | _
  · exact step_of_fallBack w tree _ rfl hfrom hplace (.refl [] tree) hstep
  · exact step_of_failure hplace hstep trivial (.refl [place] tree)
  · have hdelivers := w.transcodeResult_delivers probe chain
    rw [step_of_success hstep hdelivers.success]
    exact .transcodes _ hfrom hdelivers

theorem step_of_copy {failure : Option String} {outcome : Except CopyError Unit}
    (hplace : tree.place? w.job.output = some place) (hstage : w.stage = .copying failure)
    (hevent : event = .copied outcome)
    (hstep : (w.step event tree).value = (w.afterCopy tree failure outcome).value) :
    StepEffect w event place tree (step w event tree).value := by
  rcases outcome with (fault | crash) | _
  · exact step_of_failure hplace hstep (JobResult.failure_fails _ _ _) (.refl [place] tree)
  · exact step_of_failure hplace hstep trivial (.refl [place] tree)
  · have hdelivers := w.copyResult_delivers failure
    have hvalue : (w.step event tree).value =
        (tree, .ended (.finished (w.copyResult failure))) := by
      rw [hstep]
      simp [WaitingJob.afterCopy, WaitingJob.finish]
    rw [step_of_success hvalue hdelivers.success]
    exact .copies _ (by simp [hstage, JobStage.isCopying]) hevent hdelivers

/-- The step in which a job is given up. -/
theorem step_of_abandon (hplace : tree.place? w.job.output = some place)
    (hstep : (w.step event tree).value = (w.abandon tree).value) :
    StepEffect w event place tree (step w event tree).value :=
  step_of_failure hplace hstep trivial (OutputFile.removePartial_spec hplace).1

/-- Every later step of a job has one of the listed effects. -/
theorem step_effect (w : WaitingJob) (event : JobEvent) {tree : FileTree} {place : Location}
    (hplace : tree.place? w.job.output = some place) :
    StepEffect w event place tree (step w event tree).value := by
  have hignored : (w.step event tree).value = (tree, .waits w) →
      StepEffect w event place tree (step w event tree).value := by
    intro hstep
    rw [step_of_waits hstep]
    exact .ignores
  have hdropped : ∀ ending : JobEnd, ending.Fails →
      (w.step event tree).value = (tree, .ended ending) →
      StepEffect w event place tree (step w event tree).value := fun _ hfails hstep =>
    step_of_failure hplace hstep hfails (.refl [place] tree)
  rcases hstage : w.stage with _ | ⟨probe, chain⟩ | failure | _ <;>
    rcases event with (crash | probe') | outcome | outcome | _
  -- waiting for the prober
  case probing.probed.error =>
    exact hdropped (.crashed crash) trivial (by simp [WaitingJob.step, hstage, WaitingJob.finish])
  case probing.probed.ok =>
    exact step_of_probe probe' hplace hstage (by simp [WaitingJob.step, hstage])
  case probing.cancelled =>
    exact hdropped .cancelled trivial (by simp [WaitingJob.step, hstage, WaitingJob.finish])
  -- waiting for the transcoder
  case transcoding.transcoded =>
    exact step_of_transcode outcome hplace hstage (by simp [WaitingJob.step, hstage])
  case transcoding.cancelled => exact step_of_abandon hplace (by simp [WaitingJob.step, hstage])
  -- waiting for a copy
  case copying.copied =>
    exact step_of_copy hplace hstage rfl (by simp [WaitingJob.step, hstage])
  case copying.cancelled =>
    have hvalue : (w.step .cancelled tree).value =
        (tree, .waits { w with stage := .abandoning }) := by
      simp [WaitingJob.step, hstage]
    rw [step_of_waits hvalue]
    exact .abandons (by simp [hstage, JobStage.isCopying])
  case abandoning.copied => exact step_of_abandon hplace (by simp [WaitingJob.step, hstage])
  case abandoning.cancelled =>
    exact hdropped .cancelled trivial (by simp [WaitingJob.step, hstage, WaitingJob.finish])
  -- every other event is not awaited
  all_goals exact hignored (by simp [WaitingJob.step, hstage])

end Later

end FileJob

end BroadcastIntake
