import BroadcastIntake.Job.Moves
import BroadcastIntake.Proofs.Batch.Stats
import BroadcastIntake.Proofs.Job.Calls

/-!
# What is left of a job

A job that nobody cancels gets three answers at most, from the prober, the transcoder and the
copier, whatever they are.  Each expected answer takes it to a later stage or to its end
(`later_of_expects`), and the result at the end says one thing about itself.

So a file has a number of moves before it, `Slot.stepsLeft`.  A move that is due lowers the number
(`Slot.move_of_isDue`), and as long as a job is under way some move of it is due.
-/

namespace BroadcastIntake

/-- How many answers a job may still get unless it is cancelled. -/
def JobStage.answersLeft : JobStage → Nat
  | probing => 3
  | transcoding _ _ => 2
  | copying _ => 1
  | abandoning => 0

/-- Whether the event is an answer of the one that works for the job. -/
def JobStage.expects : JobStage → JobEvent → Bool
  | probing, .probed _ | transcoding _ _, .transcoded _ | copying _, .copied _ => true
  | _, _ => false

/-- The job has ended without having been cancelled, or gets fewer than `n` answers from here. -/
def JobProgress.IsLater (n : Nat) : JobProgress → Prop
  | waits next => 0 < next.stage.answersLeft ∧ next.stage.answersLeft < n
  | ended (.finished result) => result.Classed
  | ended .cancelled => False
  | ended (.crashed _) => True

theorem JobProgress.isLater_waits {next : WaitingJob} {k n : Nat}
    (hleft : next.stage.answersLeft = k) (hk : 0 < k ∧ k < n) : (waits next).IsLater n := by
  subst hleft
  exact hk

theorem JobStage.answersLeft_of_expects {stage : JobStage} {event : JobEvent}
    (hexpects : stage.expects event = true) : 0 < stage.answersLeft := by
  cases stage with
  | probing | transcoding | copying => exact Nat.zero_lt_succ _
  | abandoning => cases hexpects

/-! ## Steps -/

namespace WaitingJob

open JobProgress (isLater_waits)

variable {w : WaitingJob} {event : JobEvent} {tree : FileTree}

theorem classed_transcodeResult (probe : ProbeInfo) (chain : FilterChain) :
    (w.transcodeResult probe chain).Classed :=
  { JobResult.classed_copied w.history w.warnings w.job.output with
    fallback := nofun
    transcoded := fun _ => rfl }

theorem classed_copyResult (failure : Option String) : (w.copyResult failure).Classed := by
  have hcopied := JobResult.classed_copied w.history w.warnings w.job.output
  cases failure with
  | none => exact hcopied
  | some failure => exact { hcopied with fallback := fun _ => ⟨rfl, rfl⟩ }

theorem later_afterProbe (probe : ProbeInfo) : (w.afterProbe tree probe).value.2.IsLater 3 := by
  by_cases htranscodes : w.job.transcodes = true
  · simp only [afterProbe, htranscodes, if_true, beginTranscode, Logged.value_bind]
    split
    · exact isLater_waits (k := 2) rfl (by decide)
    · split
      · exact isLater_waits (k := 1) rfl (by decide)
      · trivial
  · simp only [afterProbe, htranscodes]
    exact isLater_waits (k := 1) rfl (by decide)

theorem later_afterTranscode {probe : ProbeInfo} {chain : FilterChain}
    (outcome : Except TranscodeError Unit) :
    (w.afterTranscode tree probe chain outcome).value.2.IsLater 2 := by
  rcases outcome with (fault | crash) | _
  · exact isLater_waits (k := 1) rfl (by decide)
  · trivial
  · exact classed_transcodeResult probe chain

theorem later_afterCopy {failure : Option String} (outcome : Except CopyError Unit) :
    (w.afterCopy tree failure outcome).value.2.IsLater 1 := by
  rcases outcome with (fault | crash) | _
  · exact JobResult.classed_failure _ _ _
  · trivial
  · cases failure <;> exact classed_copyResult _

/-- An expected answer takes a job to a later stage or to its end. -/
theorem later_of_expects (hexpects : w.stage.expects event = true) :
    (w.step event tree).value.2.IsLater w.stage.answersLeft := by
  unfold step
  rcases hstage : w.stage with _ | ⟨probe, chain⟩ | failure | _ <;> rw [hstage] at hexpects <;>
    rcases event with (crash | probe') | outcome | outcome | _ <;> try cases hexpects
  case probing.probed.error => trivial
  case probing.probed.ok => exact later_afterProbe probe'
  case transcoding.transcoded => exact later_afterTranscode outcome
  case copying.copied => exact later_afterCopy outcome

end WaitingJob

/-- A job that starts gets three answers at most. -/
theorem FileJob.later_start (c : ShowContext) (source : Path) (tree : FileTree) :
    (FileJob.start c source tree).value.2.IsLater 4 := by
  unfold FileJob.start
  simp only [Logged.value_bind]
  split
  · exact JobProgress.isLater_waits (k := 3) rfl (by decide)
  · exact JobResult.classed_failure _ _ _
  · trivial

/-! ## Moves -/

namespace Slot

/-- How many moves a file has before it at most. -/
def stepsLeft : Slot → Nat
  | queued => 7
  | waiting w none => 2 * w.stage.answersLeft
  | waiting w (some _) => 2 * w.stage.answersLeft - 1
  | ended _ => 0

/-- The file has not been cancelled, an answer that is there is an expected one, and a result that
is there says one thing about itself. -/
def IsOnCourse : Slot → Prop
  | queued => True
  | waiting w none => 0 < w.stage.answersLeft
  | waiting w (some event) => w.stage.expects event = true
  | ended (.finished result) => result.Classed
  | ended .cancelled => False
  | ended (.crashed _) => True

/-- Whether a move takes the file on: its job starts, gets an expected answer, or goes on with
it. -/
def isDue : Slot → JobMove → Bool
  | queued, .start => true
  | waiting w none, .answer event => w.stage.expects event
  | waiting w none, .copy => w.stage.expects (.copied (.ok ()))
  | waiting _ (some _), .goOn => true
  | _, _ => false

variable {slot : Slot} {m : JobMove}

theorem ofOutcome_of_isLater {n : Nat} (hn : 0 < n) {outcome : FileTree × JobProgress}
    (hlater : outcome.2.IsLater n) :
    (ofOutcome outcome none).2.IsOnCourse ∧ (ofOutcome outcome none).2.stepsLeft < 2 * n - 1 := by
  obtain ⟨tree, next | (result | _ | crash)⟩ := outcome
  · refine ⟨hlater.1, ?_⟩
    have hless := hlater.2
    simp only [ofOutcome, stepsLeft]
    omega
  · exact ⟨hlater, by simp only [ofOutcome, stepsLeft]; omega⟩
  · exact absurd hlater id
  · exact ⟨trivial, by simp only [ofOutcome, stepsLeft]; omega⟩

/-- **The step lemma.**  A move that is due keeps a file on course, and there is less left then. -/
theorem move_of_isDue (c : ShowContext) (source : Path) (tree : FileTree)
    (hcourse : slot.IsOnCourse) (hdue : slot.isDue m = true) :
    (slot.move c source tree m).value.2.IsOnCourse ∧
      (slot.move c source tree m).value.2.stepsLeft < slot.stepsLeft := by
  rcases slot with _ | ⟨w, _ | event⟩ | ending <;> cases m <;> try cases hdue
  case queued.start => exact ofOutcome_of_isLater (by decide) (FileJob.later_start c source tree)
  case waiting.none.copy =>
    obtain ⟨job, _ | _ | failure | _, warnings, history⟩ := w <;> try cases hdue
    exact ⟨rfl, Nat.lt_succ_self 1⟩
  case waiting.none.answer event =>
    have hleft := JobStage.answersLeft_of_expects hdue
    refine ⟨hdue, ?_⟩
    simp only [move, stepsLeft, Logged.value_pure]
    omega
  case waiting.some.goOn =>
    have hlater : (w.step event tree).value.2.IsLater w.stage.answersLeft :=
      WaitingJob.later_of_expects hcourse
    rw [← FileJob.progress_step] at hlater
    exact ofOutcome_of_isLater (JobStage.answersLeft_of_expects hcourse) hlater

/-- As long as a job is under way, some move of it is due. -/
theorem exists_isDue (hcourse : slot.IsOnCourse) (hactive : slot.isActive = true) :
    ∃ m, m ≠ .start ∧ slot.isDue m = true := by
  rcases slot with _ | ⟨w, _ | event⟩ | ending
  · cases hactive
  · obtain ⟨job, _ | _ | failure | _, warnings, history⟩ := w
    · exact ⟨.answer (.probed (.error (.broken ""))), nofun, rfl⟩
    · exact ⟨.answer (.transcoded (.ok ())), nofun, rfl⟩
    · exact ⟨.copy, nofun, rfl⟩
    · exact absurd hcourse (Nat.not_lt_zero 0)
  · exact ⟨.goOn, nofun, rfl⟩
  · cases hactive

end Slot

end BroadcastIntake
