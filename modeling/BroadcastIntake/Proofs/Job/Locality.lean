import BroadcastIntake.Proofs.FileTree.Directories
import BroadcastIntake.Proofs.Job.Remaining
import BroadcastIntake.Proofs.Job.Steps

/-!
# A job looks at its own files only

Helpers whose work on a file depends on nothing but the file and the filters make the whole job
depend on little: a turn of a job that waits reads its source and changes what stands at its output,
and apart from that it is the same in every tree that is fit for the job (`turn_of_waiting`).

A turn is what the job and its helpers do between two points at which other jobs may come in.  It
consists of moves, and from its start to its end a job takes no more than seven turns
(`isEnded_turns`).
-/

namespace BroadcastIntake

open FileTree (KeepsDirectories)

/-! ## Helpers -/

/-- A file as it is handed to a helper: its path, and what is read from it. -/
structure HandedFile where
  path : Path
  content : Except FileError ByteArray

def FileTree.hand (tree : FileTree) (path : Path) : HandedFile :=
  ⟨path, tree.read path⟩

/-- Those that work for jobs.  What comes of their work depends on the file and the filters that
they are given; a transcoder or a copier may leave something at the output. -/
structure Helpers where
  probe : HandedFile → Except Crash ProbeInfo
  transcode : HandedFile → FilterChain → Option ByteArray × Except TranscodeError Unit
  /-- What is done in place of a plain copy, if anything. -/
  copier : Option (HandedFile → Option ByteArray × Except CopyError Unit)

/-- A file has the given job as long as it is under way; a result of it names its output if it is a
success, and no output otherwise. -/
def Slot.Serves (job : Job) : Slot → Prop
  | queued => True
  | waiting w _ => w.job = job
  | ended (.finished result) => result.output = if result.success then some job.output else none
  | ended _ => True

namespace Helpers

/-- The moves of a helper that leaves something and answers. -/
def delivery (left : Option ByteArray) (event : JobEvent) : List JobMove :=
  left.toList.map .write ++ [.answer event]

/-- The moves that the helpers make for a job that waits. -/
def work (h : Helpers) (w : WaitingJob) (tree : FileTree) : List JobMove :=
  let file := tree.hand w.job.source
  match w.stage with
  | .probing => [.answer (.probed (h.probe file))]
  | .transcoding _ chain =>
    delivery (h.transcode file chain).1 (.transcoded (h.transcode file chain).2)
  | .copying _ | .abandoning =>
    match h.copier with
    | none => [.copy]
    | some copier => delivery (copier file).1 (.copied (copier file).2)

/-- The moves of a file up to where other jobs may come in: its job starts, the helpers work for it,
or it goes on with their answer. -/
def segment (h : Helpers) (tree : FileTree) : Slot → List JobMove
  | .queued => [.start]
  | .waiting w none => h.work w tree
  | .waiting _ (some _) => [.goOn]
  | .ended _ => []

/-- The tree and the slot after a turn of a file. -/
def turn (h : Helpers) (c : ShowContext) (source : Path) (s : FileTree × Slot) :
    FileTree × Slot :=
  (s.2.moves c source s.1 (h.segment s.1 s.2)).value

/-- The tree and the slot after some turns of a file that is alone. -/
def turns (h : Helpers) (c : ShowContext) (source : Path) (tree : FileTree) :
    Nat → FileTree × Slot
  | 0 => (tree, .queued)
  | n + 1 => h.turn c source (h.turns c source tree n)

end Helpers

/-! ## Changes at an output -/

/-- What becomes of the output of a job. -/
inductive OutputChange where
  | keep
  | clear
  | put (content : ByteArray)

namespace OutputChange

/-- The tree after a change at a place.  Only a file is cleared away. -/
def apply (place : Location) (tree : FileTree) : OutputChange → FileTree
  | keep => tree
  | clear =>
    match tree.get? place with
    | some (.file _) => tree.erase place
    | _ => tree
  | put content => tree.set place (.file content)

/-- What stands at the place after the change, by what stood there before. -/
def entry (before : Option Entry) : OutputChange → Option Entry
  | keep => before
  | clear => none
  | put content => some (.file content)

variable {tree : FileTree} {place : Location}

theorem get?_apply (change : OutputChange) (hplace : tree.get? place ≠ some .directory)
    (l : Location) :
    (change.apply place tree).get? l =
      if l = place then change.entry (tree.get? place) else tree.get? l := by
  have hroot := FileTree.ne_nil_of_not_directory hplace
  cases change with
  | keep =>
      by_cases hl : l = place
      · rw [hl, if_pos rfl]
        rfl
      · rw [if_neg hl]
        rfl
  | clear =>
      rcases hfound : tree.get? place with _ | (_ | content)
      · by_cases hl : l = place <;> simp [apply, entry, hfound, hl]
      · exact absurd hfound hplace
      · simp only [apply, hfound]
        rw [FileTree.get?_erase tree hroot]
        rfl
  | put content => exact FileTree.get?_set tree hroot _ l

theorem workingDirectory_apply (change : OutputChange) :
    (change.apply place tree).workingDirectory = tree.workingDirectory := by
  cases change with
  | keep => rfl
  | clear =>
      unfold apply
      dsimp only
      split <;> rfl
  | put content => rfl

theorem clear_of_none (hplace : tree.get? place = none) : clear.apply place tree = tree := by
  simp [apply, hplace]

/-- Nothing is left to clear after a change that clears. -/
theorem clear_apply_clear (hplace : tree.get? place ≠ some .directory) :
    clear.apply place (clear.apply place tree) = clear.apply place tree := by
  refine clear_of_none ?_
  rw [get?_apply clear hplace, if_pos rfl]
  rfl

theorem keepsDirectories_apply (change : OutputChange)
    (hplace : tree.get? place ≠ some .directory) :
    KeepsDirectories tree (change.apply place tree) := by
  refine ⟨change.workingDirectory_apply, fun l hl => ?_⟩
  have hne : l ≠ place := by
    rintro rfl
    exact hplace hl
  rw [get?_apply change hplace, if_neg hne, hl]

end OutputChange

/-- Removing the output of a job clears its place. -/
theorem OutputFile.removePartial_eq {tree : FileTree} {path : Path} {place : Location}
    (hplace : tree.place? path = some place) :
    (removePartial tree path).value = OutputChange.clear.apply place tree := by
  have hlocate := FileTree.locate_of_place hplace
  rcases hfound : tree.get? place with _ | (_ | content) <;>
    simp [removePartial, FileTree.pathExists, FileTree.stat?, FileTree.remove, hlocate, hfound,
      Except.map, OutputChange.apply]

/-! ## Turns of a job that waits -/

/-- A tree in which a job can work: its source is there with the given content, and its output has
the given place, apart from the source and below a directory that is there. -/
structure FileTree.FitFor (tree : FileTree) (job : Job) (content : ByteArray)
    (place : Location) : Prop where
  source : tree.read job.source = .ok content
  place? : tree.place? job.output = some place
  above : tree.LeadsToDirectory job.output.parent
  vacant : tree.get? place ≠ some .directory
  apart : tree.place? job.source ≠ some place

section Turns

variable {content : ByteArray} {place : Location}

open OutputChange (keep clear put)

namespace FileJob

variable {w : WaitingJob} {event : JobEvent}

/-- The step does the same in every tree that is fit for the job. -/
def IsUniform (w : WaitingJob) (event : JobEvent) (content : ByteArray) (place : Location) :
    Prop :=
  ∃ change progress, ∀ tree : FileTree, tree.FitFor w.job content place →
    (step w event tree).value = (OutputChange.apply place tree change, progress)

theorem isUniform_of_waits (next : WaitingJob)
    (hstep : ∀ tree : FileTree, tree.FitFor w.job content place →
      (w.step event tree).value = (tree, .waits next)) :
    IsUniform w event content place :=
  ⟨keep, .waits next, fun tree hfit => step_of_waits (hstep tree hfit)⟩

theorem isUniform_of_fallBack (next : WaitingJob)
    (hstep : ∀ tree : FileTree, tree.FitFor w.job content place →
      (w.step event tree).value =
        ((OutputFile.removePartial tree w.job.output).value, .waits next)) :
    IsUniform w event content place := by
  refine ⟨clear, .waits next, fun tree hfit => ?_⟩
  rw [step_of_waits (hstep tree hfit), OutputFile.removePartial_eq hfit.place?]

theorem isUniform_of_success {result : JobResult} (hsuccess : result.success = true)
    (hstep : ∀ tree : FileTree, tree.FitFor w.job content place →
      (w.step event tree).value = (tree, .ended (.finished result))) :
    IsUniform w event content place :=
  ⟨keep, .ended (.finished result), fun tree hfit => step_of_success (hstep tree hfit) hsuccess⟩

/-- A job that ends without an output clears its place, also when it has done so before. -/
theorem isUniform_of_fails (ending : JobEnd) (hfails : ending.Fails)
    (hstep : ∀ tree : FileTree, tree.FitFor w.job content place →
      (w.step event tree).value = (tree, .ended ending) ∨
        (w.step event tree).value =
          ((OutputFile.removePartial tree w.job.output).value, .ended ending)) :
    IsUniform w event content place := by
  refine ⟨clear, .ended ending, fun tree hfit => ?_⟩
  have hremoved := OutputFile.removePartial_eq hfit.place?
  rcases hstep tree hfit with hvalue | hvalue
  · simp [step, hvalue, settle_of_fails hfails, hremoved]
  · have hplace : (clear.apply place tree).place? w.job.output = some place :=
      (OutputChange.keepsDirectories_apply clear hfit.vacant).place? hfit.place?
    simp [step, hvalue, settle_of_fails hfails, hremoved, OutputFile.removePartial_eq hplace,
      OutputChange.clear_apply_clear hfit.vacant]

theorem isUniform_of_probe (probe : ProbeInfo)
    (hstep : ∀ tree, w.step event tree = w.afterProbe tree probe) :
    IsUniform w event content place := by
  let warned := w.warnings ++ WaitingJob.assumptionWarnings probe
  by_cases htranscodes : w.job.transcodes = true
  · let chain := (FilterChain.build w.job.options probe w.job.fadeIn w.job.fadeOut
      w.sourceName).value
    let next : WaitingJob :=
      { w with
        stage := .transcoding probe chain
        warnings := warned ++ chain.warnings
        history := w.history ++ [.buildingFilters] ++ [.transcoding] }
    refine isUniform_of_waits next fun tree hfit => ?_
    rw [hstep]
    simp only [WaitingJob.afterProbe, htranscodes, if_true, WaitingJob.beginTranscode,
      Logged.value_bind, hfit.above.makeDirectories]
    rfl
  · let next : WaitingJob :=
      { w with
        stage := .copying none
        warnings := warned
        history := w.history ++ [.directCopy] }
    refine isUniform_of_waits next fun tree hfit => ?_
    rw [hstep]
    simp only [WaitingJob.afterProbe, htranscodes]
    rfl

/-- Every step of a job does the same in every tree that is fit for the job. -/
theorem isUniform (w : WaitingJob) (event : JobEvent) : IsUniform w event content place := by
  have hignored : (∀ tree, (w.step event tree).value = (tree, .waits w)) →
      IsUniform w event content place := fun hstep =>
    isUniform_of_waits w fun tree _ => hstep tree
  rcases hstage : w.stage with _ | ⟨probe, chain⟩ | failure | _ <;>
    rcases event with (crash | probe') | outcome | outcome | _
  -- waiting for the prober
  case probing.probed.error =>
    exact isUniform_of_fails (.crashed crash) trivial fun tree _ =>
      .inl (by simp [WaitingJob.step, hstage, WaitingJob.finish])
  case probing.probed.ok =>
    exact isUniform_of_probe probe' fun tree => by simp [WaitingJob.step, hstage]
  case probing.cancelled =>
    exact isUniform_of_fails .cancelled trivial fun tree _ =>
      .inl (by simp [WaitingJob.step, hstage, WaitingJob.finish])
  -- waiting for the transcoder
  case transcoding.transcoded =>
    rcases outcome with (fault | crash) | _
    · exact isUniform_of_fallBack _ fun tree _ => by simp only [WaitingJob.step, hstage]; rfl
    · exact isUniform_of_fails (.crashed crash) trivial fun tree _ =>
        .inl (by simp only [WaitingJob.step, hstage]; rfl)
    · exact isUniform_of_success (w.transcodeResult_delivers probe chain).success fun tree _ => by
        simp only [WaitingJob.step, hstage]; rfl
  case transcoding.cancelled =>
    exact isUniform_of_fails .cancelled trivial fun tree _ =>
      .inr (by simp only [WaitingJob.step, hstage]; rfl)
  -- waiting for a copy
  case copying.copied =>
    rcases outcome with (fault | crash) | _
    · exact isUniform_of_fails _ (JobResult.failure_fails _ _ _) fun tree _ =>
        .inl (by simp only [WaitingJob.step, hstage]; rfl)
    · exact isUniform_of_fails (.crashed crash) trivial fun tree _ =>
        .inl (by simp only [WaitingJob.step, hstage]; rfl)
    · exact isUniform_of_success (w.copyResult_delivers failure).success fun tree _ => by
        simp [WaitingJob.step, hstage, WaitingJob.afterCopy, WaitingJob.finish]
  case copying.cancelled =>
    exact isUniform_of_waits _ fun tree _ => by simp only [WaitingJob.step, hstage]; rfl
  case abandoning.copied =>
    exact isUniform_of_fails .cancelled trivial fun tree _ =>
      .inr (by simp only [WaitingJob.step, hstage]; rfl)
  case abandoning.cancelled =>
    exact isUniform_of_fails .cancelled trivial fun tree _ =>
      .inl (by simp [WaitingJob.step, hstage, WaitingJob.finish])
  -- every other event is not awaited
  all_goals exact hignored fun tree => by simp [WaitingJob.step, hstage]

end FileJob

theorem Slot.serves_of_fails {job : Job} {ending : JobEnd} (hfails : ending.Fails) :
    (Slot.ended ending).Serves job := by
  obtain result | _ | crash := ending
  · obtain ⟨hfailed, hnone⟩ := hfails
    simp [Slot.Serves, hfailed, hnone]
  · trivial
  · trivial

namespace Helpers

variable {h : Helpers} {c : ShowContext} {source : Path} {w : WaitingJob}

/-- What becomes of the output when a helper leaves something there, or nothing. -/
def leaves : Option ByteArray → OutputChange
  | none => keep
  | some left => put left

theorem moves_delivery {tree : FileTree} (left : Option ByteArray) (event : JobEvent)
    (hfit : tree.FitFor w.job content place) (hwriting : w.stage.isWriting = true) :
    ((Slot.waiting w none).moves c source tree (delivery left event)).value =
      ((leaves left).apply place tree, .waiting w (some event)) := by
  cases left with
  | none => rfl
  | some left =>
      have hwrite : tree.write w.job.output left = .ok (tree.set place (.file left)) :=
        FileTree.write_eq_ok_iff.2 ⟨place, hfit.place?, hfit.vacant, rfl⟩
      simp [delivery, Slot.moves, Slot.move, hwriting, hwrite, leaves, OutputChange.apply]

/-- A plain copy puts the bytes of the source at the output. -/
theorem copy_of_fitFor {tree : FileTree} {job : Job} (hfit : tree.FitFor job content place) :
    (OutputFile.copy tree job.source job.output).value =
      ((put content).apply place tree, .ok ()) := by
  obtain ⟨l, hsource, hfile⟩ := FileTree.read_eq_ok_iff.1 hfit.source
  have hne : l ≠ place := by
    rintro rfl
    exact hfit.apart hsource
  have hnull : job.output.hasNull = false := by
    have hlocate := FileTree.locate_of_place hfit.place?
    refine Bool.eq_false_iff.2 fun hnull => ?_
    rw [FileTree.locate, if_pos hnull] at hlocate
    cases hlocate
  have hsame : OutputFile.isSame tree job.source job.output = false := by
    rw [OutputFile.isSame, FileTree.locate_of_place hsource, FileTree.locate_of_place hfit.place?,
      hfile]
    rcases tree.get? place with _ | entry
    · rfl
    · exact decide_eq_false hne
  have hwrite : tree.write job.output content = .ok (tree.set place (.file content)) :=
    FileTree.write_eq_ok_iff.2 ⟨place, hfit.place?, hfit.vacant, rfl⟩
  simp [OutputFile.copy, hfit.above.makeDirectories, OutputFile.copyContent, hnull, hsame,
    hfit.source, hwrite, OutputChange.apply]

theorem moves_copy {tree : FileTree} (hfit : tree.FitFor w.job content place)
    (hcopying : w.stage.isCopying = true) :
    ((Slot.waiting w none).moves c source tree [.copy]).value =
      ((put content).apply place tree, .waiting w (some (.copied (.ok ())))) := by
  simp [Slot.moves, Slot.move, hcopying, copy_of_fitFor hfit]

theorem turn_queued (h : Helpers) (c : ShowContext) (source : Path) (tree : FileTree) :
    h.turn c source (tree, .queued) = Slot.ofOutcome (FileJob.start c source tree).value none :=
  rfl

theorem turn_answered (h : Helpers) (c : ShowContext) (source : Path) (w : WaitingJob)
    (event : JobEvent) (tree : FileTree) :
    h.turn c source (tree, .waiting w (some event)) =
      Slot.ofOutcome (FileJob.step w event tree).value none :=
  rfl

theorem hand_of_fitFor {tree : FileTree} (hfit : tree.FitFor w.job content place) :
    tree.hand w.job.source = ⟨w.job.source, .ok content⟩ := by
  rw [FileTree.hand, hfit.source]

/-- A copy does the same in every tree that is fit for the job, whoever makes it. -/
theorem turn_of_copying (h : Helpers) (c : ShowContext) (source : Path) (content : ByteArray)
    (place : Location) (hcopying : w.stage.isCopying = true) (hwriting : w.stage.isWriting = true)
    (hwork : ∀ tree, h.work w tree = match h.copier with
      | none => [.copy]
      | some copier => delivery (copier (tree.hand w.job.source)).1
          (.copied (copier (tree.hand w.job.source)).2)) :
    ∃ change slot, ∀ tree : FileTree, tree.FitFor w.job content place →
      h.turn c source (tree, .waiting w none) = (OutputChange.apply place tree change, slot) := by
  have hturn : ∀ tree : FileTree, h.turn c source (tree, .waiting w none) =
      ((Slot.waiting w none).moves c source tree (h.work w tree)).value := fun _ => rfl
  rcases hcopier : h.copier with _ | copier
  · refine ⟨put content, .waiting w (some (.copied (.ok ()))), fun tree hfit => ?_⟩
    rw [hturn, hwork, hcopier]
    exact moves_copy hfit hcopying
  · let file : HandedFile := ⟨w.job.source, .ok content⟩
    refine ⟨leaves (copier file).1, .waiting w (some (.copied (copier file).2)),
      fun tree hfit => ?_⟩
    rw [hturn, hwork, hcopier, hand_of_fitFor hfit]
    exact moves_delivery _ _ hfit hwriting

/-- **Locality.**  A turn of a job that waits changes its output in one way and takes it to one
slot, in whatever tree that is fit for the job. -/
theorem turn_of_waiting (h : Helpers) (c : ShowContext) (source : Path) (w : WaitingJob)
    (answer : Option JobEvent) (content : ByteArray) (place : Location) :
    ∃ change slot, ∀ tree : FileTree, tree.FitFor w.job content place →
      h.turn c source (tree, .waiting w answer) = (OutputChange.apply place tree change, slot) := by
  let file : HandedFile := ⟨w.job.source, .ok content⟩
  cases answer with
  | some event =>
      have huniform : FileJob.IsUniform w event content place := FileJob.isUniform w event
      obtain ⟨change, progress, hstep⟩ := huniform
      refine ⟨change, (Slot.ofOutcome (.empty [], progress) none).2, fun tree hfit => ?_⟩
      rw [turn_answered, hstep tree hfit]
      cases progress <;> rfl
  | none =>
      have hturn : ∀ tree : FileTree, h.turn c source (tree, .waiting w none) =
          ((Slot.waiting w none).moves c source tree (h.work w tree)).value := fun _ => rfl
      rcases hstage : w.stage with _ | ⟨probe, chain⟩ | failure | _
      · refine ⟨keep, .waiting w (some (.probed (h.probe file))), fun tree hfit => ?_⟩
        rw [hturn, work, hstage, hand_of_fitFor hfit]
        rfl
      · refine ⟨leaves (h.transcode file chain).1,
          .waiting w (some (.transcoded (h.transcode file chain).2)), fun tree hfit => ?_⟩
        rw [hturn, work, hstage, hand_of_fitFor hfit]
        exact moves_delivery _ _ hfit (by rw [hstage]; rfl)
      -- a copy is made while copying and also while giving up
      all_goals
        refine turn_of_copying h c source content place (by rw [hstage]; rfl) (by rw [hstage]; rfl)
          fun tree => ?_
        rw [work, hstage]

/-! ## The slot after a turn -/

theorem slot_delivery (tree : FileTree) (left : Option ByteArray) (event : JobEvent) :
    ((Slot.waiting w none).moves c source tree (delivery left event)).value.2 =
      .waiting w (some event) := by
  cases left with
  | none => rfl
  | some left =>
      by_cases hwriting : w.stage.isWriting = true
      · rcases hwrite : tree.write w.job.output left with e | written <;>
          simp [delivery, Slot.moves, Slot.move, hwriting, hwrite]
      · simp [delivery, Slot.moves, Slot.move, hwriting]

/-- The helpers give a job that waits an answer, which it expects unless it has been cancelled. -/
theorem exists_answer (h : Helpers) (c : ShowContext) (source : Path) (w : WaitingJob)
    (tree : FileTree) :
    ∃ event, (h.turn c source (tree, .waiting w none)).2 = .waiting w (some event) ∧
      (0 < w.stage.answersLeft → w.stage.expects event = true) := by
  have hturn : h.turn c source (tree, .waiting w none) =
      ((Slot.waiting w none).moves c source tree (h.work w tree)).value := rfl
  rw [hturn, work]
  have hcopy : w.stage.isCopying = true →
      ((Slot.waiting w none).moves c source tree [.copy]).value.2 =
        .waiting w (some (.copied (OutputFile.copy tree w.job.source w.job.output).value.2)) :=
    fun hcopying => by simp [Slot.moves, Slot.move, hcopying]
  rcases hstage : w.stage with _ | ⟨probe, chain⟩ | failure | _
  · exact ⟨_, rfl, fun _ => rfl⟩
  · exact ⟨_, slot_delivery tree _ _, fun _ => rfl⟩
  · rcases h.copier with _ | copier
    · exact ⟨_, hcopy (by rw [hstage]; rfl), fun _ => rfl⟩
    · exact ⟨_, slot_delivery tree _ _, fun _ => rfl⟩
  · rcases h.copier with _ | copier
    · exact ⟨_, hcopy (by rw [hstage]; rfl), fun hleft => absurd hleft (Nat.lt_irrefl 0)⟩
    · exact ⟨_, slot_delivery tree _ _, fun hleft => absurd hleft (Nat.lt_irrefl 0)⟩

theorem turn_ended (h : Helpers) (tree : FileTree) (ending : JobEnd) :
    h.turn c source (tree, .ended ending) = (tree, .ended ending) :=
  rfl

theorem turn_ne_queued (h : Helpers) (c : ShowContext) (source : Path) (s : FileTree × Slot) :
    (h.turn c source s).2 ≠ .queued := by
  have houtcome : ∀ outcome : FileTree × JobProgress,
      (Slot.ofOutcome outcome none).2 ≠ .queued := by
    rintro ⟨tree, next | ending⟩ <;> simp [Slot.ofOutcome]
  obtain ⟨tree, _ | ⟨w, _ | event⟩ | ending⟩ := s
  · exact houtcome (FileJob.start c source tree).value
  · obtain ⟨event, hslot, -⟩ := h.exists_answer c source w tree
    rw [hslot]
    exact Slot.noConfusion
  · exact houtcome (FileJob.step w event tree).value
  · exact Slot.noConfusion

/-- A turn of a job that waits leaves the file with that job or with a result of it. -/
theorem turn_serves (h : Helpers) (c : ShowContext) (source : Path) (answer : Option JobEvent)
    {tree : FileTree} (hplace : tree.place? w.job.output = some place) :
    (h.turn c source (tree, .waiting w answer)).2.Serves w.job := by
  have hdelivers : ∀ {result : JobResult} {transcoded : Bool},
      result.Delivers w.job.output transcoded →
        (Slot.ended (.finished result)).Serves w.job := fun hdelivers => by
    simp [Slot.Serves, hdelivers.success, hdelivers.output]
  cases answer with
  | none =>
      obtain ⟨event, hslot, -⟩ := h.exists_answer c source w tree
      rw [hslot]
      rfl
  | some event =>
      rw [turn_answered]
      have heffect := FileJob.step_effect w event hplace
      generalize (FileJob.step w event tree).value = outcome at heffect
      cases heffect with
      | ignores => rfl
      | goesOn changed next hjob hfrom hto hframe => exact hjob
      | fallsBack changed next failure hjob hfrom hto hframe hgone => exact hjob
      | abandons hfrom => rfl
      | transcodes result hfrom hresult => exact hdelivers hresult
      | copies result hfrom hevent hresult => exact hdelivers hresult
      | fails left ending hend hframe hgone => exact Slot.serves_of_fails hend

/-! ## Seven turns -/

/-- A turn keeps a file on course, and there is less left then, if there was something left. -/
theorem turn_isOnCourse (h : Helpers) (c : ShowContext) (source : Path) {s : FileTree × Slot}
    (hcourse : s.2.IsOnCourse) :
    (h.turn c source s).2.IsOnCourse ∧
      (h.turn c source s).2.stepsLeft ≤ s.2.stepsLeft - 1 := by
  obtain ⟨tree, _ | ⟨w, _ | event⟩ | ending⟩ := s
  · have hmoved := Slot.move_of_isDue (m := .start) c source tree hcourse rfl
    exact ⟨hmoved.1, Nat.le_sub_one_of_lt hmoved.2⟩
  · obtain ⟨event, hslot, hexpects⟩ := h.exists_answer c source w tree
    rw [hslot]
    exact ⟨hexpects hcourse, Nat.le_refl _⟩
  · have hmoved := Slot.move_of_isDue (m := .goOn) c source tree hcourse rfl
    exact ⟨hmoved.1, Nat.le_sub_one_of_lt hmoved.2⟩
  · exact ⟨hcourse, Nat.zero_le _⟩

theorem isEnded_of_stepsLeft {slot : Slot} (hcourse : slot.IsOnCourse)
    (hleft : slot.stepsLeft = 0) : slot.isEnded = true := by
  obtain _ | ⟨w, _ | event⟩ | ending := slot
  · cases hleft
  · have hsome : 0 < w.stage.answersLeft := hcourse
    simp only [Slot.stepsLeft] at hleft
    omega
  · have hsome := JobStage.answersLeft_of_expects hcourse
    simp only [Slot.stepsLeft] at hleft
    omega
  · rfl

/-- A file that is alone has been dealt with after seven turns. -/
theorem isEnded_turns (h : Helpers) (c : ShowContext) (source : Path) (tree : FileTree) {n : Nat}
    (hn : 7 ≤ n) : (h.turns c source tree n).2.isEnded = true := by
  have hleft : ∀ n, (h.turns c source tree n).2.IsOnCourse ∧
      (h.turns c source tree n).2.stepsLeft ≤ 7 - n := by
    intro n
    induction n with
    | zero => exact ⟨trivial, Nat.le_refl 7⟩
    | succ n ih =>
        obtain ⟨hcourse, hless⟩ := h.turn_isOnCourse c source ih.1
        refine ⟨hcourse, ?_⟩
        have hbefore := ih.2
        simp only [turns]
        omega
  obtain ⟨hcourse, hless⟩ := hleft n
  exact isEnded_of_stepsLeft hcourse (by omega)

/-- Nothing changes for a file that has been dealt with. -/
theorem turns_of_isEnded {h : Helpers} {c : ShowContext} {source : Path} {tree : FileTree}
    {m n : Nat} (hended : (h.turns c source tree m).2.isEnded = true) (hmn : m ≤ n) :
    h.turns c source tree n = h.turns c source tree m := by
  induction hmn with
  | refl => rfl
  | step hmn ih =>
      rw [turns, ih]
      rcases hturns : h.turns c source tree m with ⟨left, _ | ⟨w, answer⟩ | ending⟩ <;>
        rw [hturns] at hended <;> try cases hended
      exact h.turn_ended left ending

end Helpers

end Turns

end BroadcastIntake
