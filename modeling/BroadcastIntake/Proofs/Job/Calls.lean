import BroadcastIntake.Job.Run
import BroadcastIntake.Proofs.FileTree.Directories
import BroadcastIntake.Proofs.Job.Steps

/-!
# What a job calls

A job for a file calls the prober, then the transcoder if it is to transcode, and nothing else.
The warnings of its result are those it had gathered when it began to write.  Both are read off
backwards: `comes_of_keepsWarnings` for a job that waits for a copy, `comes_of_transcoding` for one
that waits for the transcoder, and `comes_of_probing` for one that has just begun.
-/

namespace BroadcastIntake

/-- A step of a job that has begun to write gathers no more warnings, and what it goes on to wait
for is a copy. -/
def JobProgress.KeepsWarnings (warnings : List String) : JobProgress → Prop
  | .waits next => next.stage.isCopying = true ∧ next.warnings = warnings
  | .ended (.finished result) => result.warnings = warnings
  | .ended _ => True

/-- The run calls exactly the given tools, and its result, if there is one, has the given
warnings. -/
structure JobRun.Comes (run : JobRun) (calls : List ToolCall) (warnings : List String) : Prop where
  calls : run.calls = calls
  warnings : ∀ result, run.ending = some (.finished result) → result.warnings = warnings

namespace WaitingJob

variable {w : WaitingJob} {tree : FileTree}

theorem keepsWarnings_fallBack (failure : String) :
    (w.fallBack tree failure).value.2.KeepsWarnings w.warnings :=
  ⟨rfl, rfl⟩

theorem keepsWarnings_afterTranscode {probe : ProbeInfo} {chain : FilterChain}
    (outcome : Except TranscodeError Unit) :
    (w.afterTranscode tree probe chain outcome).value.2.KeepsWarnings w.warnings := by
  rcases outcome with (fault | crash) | _
  · exact keepsWarnings_fallBack _
  · trivial
  · exact rfl

theorem keepsWarnings_afterCopy {failure : Option String} (outcome : Except CopyError Unit) :
    (w.afterCopy tree failure outcome).value.2.KeepsWarnings w.warnings := by
  rcases outcome with (fault | crash) | _
  · exact rfl
  · trivial
  · cases failure <;> exact rfl

theorem keepsWarnings_of_copying (hstage : w.stage.isCopying = true) (event : JobEvent) :
    (w.step event tree).value.2.KeepsWarnings w.warnings := by
  have hignored : ((tree, JobProgress.waits w) : FileTree × JobProgress).2.KeepsWarnings
      w.warnings := ⟨hstage, rfl⟩
  rcases hw : w.stage with _ | ⟨probe, chain⟩ | failure | _
  case probing => simp [hw, JobStage.isCopying] at hstage
  case transcoding => simp [hw, JobStage.isCopying] at hstage
  case copying =>
    simp only [step, hw]
    cases event with
    | copied outcome => exact keepsWarnings_afterCopy outcome
    | cancelled => exact ⟨rfl, rfl⟩
    | _ => exact hignored
  case abandoning =>
    simp only [step, hw]
    cases event with
    | copied outcome => trivial
    | cancelled => trivial
    | _ => exact hignored

theorem keepsWarnings_of_transcoding {probe : ProbeInfo} {chain : FilterChain}
    (hstage : w.stage = .transcoding probe chain) {event : JobEvent}
    (hevent : event = .cancelled ∨ ∃ outcome, event = .transcoded outcome) :
    (w.step event tree).value.2.KeepsWarnings w.warnings := by
  simp only [step, hstage]
  rcases hevent with rfl | ⟨outcome, rfl⟩
  · trivial
  · exact keepsWarnings_afterTranscode outcome

end WaitingJob

namespace FileJob

/-- Settling a job changes nothing about how it goes on. -/
theorem progress_step (w : WaitingJob) (event : JobEvent) (tree : FileTree) :
    (step w event tree).value.2 = (w.step event tree).value.2 := by
  unfold step
  simp only [Logged.value_bind]
  split <;> rename_i hstep <;> simp [hstep]

end FileJob

/-! ## Replies -/

/-- A copier has replied, or has not yet: no tool is called, and only a copy comes to its end. -/
structure Reply.IsOfCopier (r : Reply) : Prop where
  calls : r.calls = []
  event : ∀ event, r.event = some event → ∃ outcome, event = .copied outcome

namespace Surroundings

variable (s : Surroundings) (w : WaitingJob) (tree : FileTree)

theorem isOfCopier_endCopy : (s.endCopy w tree).value.IsOfCopier := by
  unfold endCopy
  split <;> exact ⟨rfl, fun event hevent => ⟨_, (Option.some.inj hevent).symm⟩⟩

theorem isOfCopier_replyCopy : (s.replyCopy w tree).value.IsOfCopier := by
  unfold replyCopy
  split
  · exact s.isOfCopier_endCopy w tree
  · split
    · exact ⟨rfl, fun event hevent => ⟨_, (Option.some.inj hevent).symm⟩⟩
    · split
      · exact ⟨rfl, nofun⟩
      · exact s.isOfCopier_endCopy w _

/-- A job that waits for a copy hears from a copier. -/
theorem isOfCopier_reply (hstage : w.stage.isCopying = true) :
    (s.reply w tree).value.IsOfCopier := by
  unfold reply
  split
  · simp_all [JobStage.isCopying]
  · simp_all [JobStage.isCopying]
  · exact s.isOfCopier_replyCopy w tree
  · exact s.isOfCopier_endCopy w tree

end Surroundings

/-! ## Runs -/

namespace JobRun

variable {s : Surroundings} {cancels : Bool} {w : WaitingJob} {tree : FileTree}
  {calls : List ToolCall}

/-- A job that waits is left waiting, or it takes the step for what has come or for its
cancellation. -/
theorem runFor_waits (reply : Replier) (step : Stepper) (n : Nat) :
    let r := (reply w tree).value
    (runFor reply step cancels (n + 1) (.waits w) tree calls).value =
        ⟨none, r.tree, calls ++ r.calls⟩ ∨
      ∃ event, (r.event = some event ∨ event = .cancelled) ∧
        (runFor reply step cancels (n + 1) (.waits w) tree calls).value =
          (runFor reply step cancels n (step w event r.tree).value.2 (step w event r.tree).value.1
            (calls ++ r.calls)).value := by
  intro r
  rcases hevent : r.event with _ | event
  · cases cancels
    · left
      simp [runFor, r, hevent]
    · refine .inr ⟨.cancelled, .inr rfl, ?_⟩
      simp [runFor, r, hevent]
  · refine .inr ⟨event, .inl rfl, ?_⟩
    simp [runFor, r, hevent]

theorem comes_of_waiting (warnings : List String) : Comes ⟨none, tree, calls⟩ calls warnings :=
  ⟨rfl, by simp⟩

theorem comes_of_ended {ending : JobEnd} {warnings : List String}
    (hkeeps : (JobProgress.ended ending).KeepsWarnings warnings) :
    Comes ⟨some ending, tree, calls⟩ calls warnings := by
  refine ⟨rfl, ?_⟩
  rintro result ⟨⟩
  exact hkeeps

/-- A job that has begun to write calls no tool any more. -/
theorem comes_of_keepsWarnings (n : Nat) {warnings : List String} :
    ∀ {progress : JobProgress} {tree : FileTree}, progress.KeepsWarnings warnings →
      (runFor s.reply FileJob.step cancels n progress tree calls).value.Comes calls warnings := by
  induction n with
  | zero =>
    intro progress tree hkeeps
    rcases progress with w | ending
    · exact comes_of_waiting warnings
    · exact comes_of_ended hkeeps
  | succ n ih =>
    intro progress tree hkeeps
    rcases progress with w | ending
    · obtain ⟨hstage, rfl⟩ := hkeeps
      have hcalls : calls ++ (s.reply w tree).value.calls = calls := by
        rw [(s.isOfCopier_reply w tree hstage).calls, List.append_nil]
      rcases runFor_waits s.reply FileJob.step n with hrun | ⟨event, -, hrun⟩ <;> rw [hrun, hcalls]
      · exact comes_of_waiting w.warnings
      · refine ih ?_
        rw [FileJob.progress_step]
        exact WaitingJob.keepsWarnings_of_copying hstage event
    · rw [runFor_ended]
      exact comes_of_ended hkeeps

/-- A job that waits for the transcoder calls it and nothing else. -/
theorem comes_of_transcoding (n : Nat) {probe : ProbeInfo} {chain : FilterChain}
    (hstage : w.stage = .transcoding probe chain) :
    (runFor s.reply FileJob.step cancels (n + 1) (.waits w) tree calls).value.Comes
      (calls ++ [s.transcoder.call w.job.source w.job.output chain]) w.warnings := by
  have hreply : s.reply w tree = s.replyTranscode w chain tree := by
    simp [Surroundings.reply, hstage]
  rcases runFor_waits s.reply FileJob.step n with hrun | ⟨event, hevent, hrun⟩ <;>
    rw [hrun, hreply]
  · exact comes_of_waiting w.warnings
  · refine comes_of_keepsWarnings n ?_
    rw [FileJob.progress_step]
    refine WaitingJob.keepsWarnings_of_transcoding hstage ?_
    rw [hreply] at hevent
    rcases hevent with hevent | hevent
    · obtain ⟨ending, -, rfl⟩ := Option.map_eq_some_iff.1 hevent
      exact .inr ⟨_, rfl⟩
    · exact .inl hevent

/-- A job that has begun calls the prober first.  With the directory above its output there, it
goes on to the transcoder if it is to transcode, and to a copy if not. -/
theorem comes_of_probing (n : Nat) {changed : FileTree} {probe : ProbeInfo}
    (hstage : w.stage = .probing)
    (hprobe : (s.probe tree w.job.source).value =
      (changed, some (.ok probe), s.prober.call w.job.source))
    (habove : changed.LeadsToDirectory w.job.output.parent) :
    let chain := (FilterChain.build w.job.options probe w.job.fadeIn w.job.fadeOut
      w.job.source.name).value
    let warned := w.warnings ++ WaitingJob.assumptionWarnings probe
    (runFor s.reply FileJob.step cancels (n + 2) (.waits w) tree calls).value.Comes
      (calls ++ s.prober.call w.job.source ::
        if w.job.transcodes then [s.transcoder.call w.job.source w.job.output chain] else [])
      (warned ++ if w.job.transcodes then chain.warnings else []) := by
  intro chain warned
  have hrun : (runFor s.reply FileJob.step cancels (n + 2) (.waits w) tree calls).value =
      (runFor s.reply FileJob.step cancels (n + 1)
        (FileJob.step w (.probed (.ok probe)) changed).value.2
        (FileJob.step w (.probed (.ok probe)) changed).value.1
        (calls ++ [s.prober.call w.job.source])).value := by
    simp [runFor, Surroundings.reply, hstage, Surroundings.replyProbe, hprobe]
  rw [hrun]
  by_cases htranscodes : w.job.transcodes = true
  · let next : WaitingJob :=
      { w with
        stage := .transcoding probe chain
        warnings := warned ++ chain.warnings
        history := w.history ++ [.buildingFilters] ++ [.transcoding] }
    have hstep : (w.step (.probed (.ok probe)) changed).value = (changed, .waits next) := by
      simp [WaitingJob.step, hstage, WaitingJob.afterProbe, WaitingJob.beginTranscode, htranscodes,
        habove.makeDirectories, WaitingJob.goOn, next, chain, warned, WaitingJob.sourceName]
    rw [FileJob.step_of_waits hstep]
    have hcomes := @comes_of_transcoding s cancels next changed
      (calls ++ [s.prober.call w.job.source]) n probe chain rfl
    simpa [htranscodes, next] using hcomes
  · have hstep : (w.step (.probed (.ok probe)) changed).value =
        (changed, .waits { w with
          stage := .copying none
          warnings := warned
          history := w.history ++ [.directCopy] }) := by
      simp [WaitingJob.step, hstage, WaitingJob.afterProbe, htranscodes, WaitingJob.goOn, warned]
    rw [FileJob.step_of_waits hstep]
    simp only [htranscodes, Bool.false_eq_true, if_false, List.append_nil]
    exact comes_of_keepsWarnings (n + 1) ⟨rfl, rfl⟩

end JobRun

end BroadcastIntake
