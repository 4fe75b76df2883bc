import BroadcastIntake.Job.Moves
import BroadcastIntake.Proofs.Job.Steps

/-!
# Tracking the output of a job

The invariant of one job among others.  From the start on the job has an output whose place was
free in the tree before any work.  A file stands there, except between a failed transcode and the
end of the copy that follows it.  A job that has succeeded leaves a file with the bytes that were
made for it last; a job that has failed leaves none.

What a move can do is listed once (`MoveEffect`).  `move_tracks` is the step lemma: a move of the
job keeps the invariant and changes files only at the output.  `Tracks.frame` says that whatever
changes files elsewhere keeps it too.
-/

namespace BroadcastIntake

open FileTree (ChangesOnlyAt Extends)

/-- Only a copy copies: nothing else tells a job that its source has been copied. -/
def JobMove.IsHonest : JobMove → Prop
  | .answer (.copied (.ok ())) => False
  | _ => True

namespace Slot

/-- The output of the job of a file: reserved while the job is under way, delivered once it has
succeeded. -/
def output? : Slot → Option Path
  | queued => none
  | waiting w _ => some w.job.output
  | ended (.finished result) => result.output
  | ended _ => none

/-- The output of the job has the given place. -/
def Holds (tree : FileTree) (slot : Slot) (place : Location) : Prop :=
  ∃ path, slot.output? = some path ∧ tree.place? path = some place

/-- The bytes that were made for a job last, after a move: what a tool or copier wrote, or the
bytes of the source when it was copied. -/
def bytesAfter (tree : FileTree) (slot : Slot) (m : JobMove) (bytes : ByteArray) : ByteArray :=
  match m, slot with
  | .start, queued => ByteArray.empty
  | .write content, waiting w none => if w.stage.isWriting then content else bytes
  | .copy, waiting w none =>
    if w.stage.isCopying then (tree.read w.job.source).toOption.getD bytes else bytes
  | _, _ => bytes

/-- What a move does: the tree and the slot after it, and the bytes that were made last. -/
inductive MoveEffect (c : ShowContext) (source : Path) (tree : FileTree) (bytes : ByteArray) :
    Slot → JobMove → FileTree × Slot → ByteArray → Prop
  /-- A move that is not possible does nothing. -/
  | stays (slot : Slot) (m : JobMove) : MoveEffect c source tree bytes slot m (tree, slot) bytes
  | starts : MoveEffect c source tree bytes queued .start
      (ofOutcome (FileJob.start c source tree).value none) ByteArray.empty
  | writes (w : WaitingJob) (content : ByteArray) (hwriting : w.stage.isWriting = true) :
      MoveEffect c source tree bytes (waiting w none) (.write content)
        ((tree.write w.job.output content).toOption.getD tree, waiting w none) content
  | copies (w : WaitingJob) (after : FileTree) (outcome : Except CopyError Unit)
      (hcopying : w.stage.isCopying = true)
      (hcopy : (OutputFile.copy tree w.job.source w.job.output).value = (after, outcome)) :
      MoveEffect c source tree bytes (waiting w none) .copy
        (after, waiting w (some (.copied outcome)))
        ((tree.read w.job.source).toOption.getD bytes)
  | answers (w : WaitingJob) (event : JobEvent) :
      MoveEffect c source tree bytes (waiting w none) (.answer event)
        (tree, waiting w (some event)) bytes
  | cancels (w : WaitingJob) (answer : Option JobEvent) (hstage : w.stage ≠ .abandoning) :
      MoveEffect c source tree bytes (waiting w answer) .cancel
        (ofOutcome (FileJob.step w .cancelled tree).value answer) bytes
  | goesOn (w : WaitingJob) (event : JobEvent) :
      MoveEffect c source tree bytes (waiting w (some event)) .goOn
        (ofOutcome (FileJob.step w event tree).value none) bytes

/-- Every move has one of the listed effects. -/
theorem move_effect (c : ShowContext) (source : Path) (tree : FileTree) (bytes : ByteArray)
    (slot : Slot) (m : JobMove) :
    MoveEffect c source tree bytes slot m (slot.move c source tree m).value
      (bytesAfter tree slot m bytes) := by
  have hcancel : ∀ w answer, MoveEffect c source tree bytes (waiting w answer) .cancel
      ((waiting w answer).move c source tree .cancel).value bytes := by
    intro w answer
    by_cases hstage : w.stage = .abandoning
    · simpa [move, hstage] using MoveEffect.stays (waiting w answer) .cancel
    · simpa [move, hstage] using MoveEffect.cancels w answer hstage
  rcases slot with _ | ⟨w, _ | event⟩ | ending
  case queued =>
    cases m with
    | start => exact .starts
    | _ => exact .stays _ _
  case ended => cases m <;> exact .stays _ _
  case waiting.some =>
    cases m with
    | cancel => exact hcancel w _
    | goOn => exact .goesOn w event
    | _ => exact .stays _ _
  -- a job without an answer is worked for, answered or cancelled
  case waiting.none =>
    cases m with
    | write content =>
        by_cases hwriting : w.stage.isWriting = true
        · have hwrites : MoveEffect c source tree bytes _ _ _ _ := .writes w content hwriting
          rcases hwrite : tree.write w.job.output content with e | written <;>
            simpa [move, bytesAfter, hwriting, hwrite, Except.toOption] using hwrites
        · simpa [move, bytesAfter, hwriting] using
            MoveEffect.stays (waiting w none) (.write content)
    | copy =>
        by_cases hcopying : w.stage.isCopying = true
        · simpa [move, bytesAfter, hcopying] using MoveEffect.copies w _ _ hcopying rfl
        · simpa [move, bytesAfter, hcopying] using MoveEffect.stays (waiting w none) .copy
    | answer event => exact .answers w event
    | cancel => exact hcancel w none
    | start => exact .stays _ _
    | goOn => exact .stays _ _

/-- A job that waits: its output is in place, and what stands there fits its stage. -/
structure Awaits (initial : FileTree) (source : Path) (tree : FileTree) (bytes : ByteArray)
    (w : WaitingJob) (answer : Option JobEvent) (place : Location) : Prop where
  place? : tree.place? w.job.output = some place
  isNew : initial.get? place = none
  job : w.job.source = source
  sourcePlace : (tree.place? source).isSome
  /-- Until a copy begins, the output holds what was made last. -/
  made : w.stage.isCopying = false → tree.get? place = some (.file bytes)
  /-- A file stands at the output during a copy, unless a transcode has failed before. -/
  guarded : w.stage = .copying none → ∃ content, tree.get? place = some (.file content)
  /-- A copy that has succeeded has left the bytes of the source. -/
  copied : answer = some (.copied (.ok ())) → w.stage.isCopying = true ∧
    tree.get? place = some (.file bytes) ∧ ∀ content, initial.read source = .ok content →
      bytes = content

/-- What is kept of a file while its job runs among others in a tree that grew from `initial`. -/
inductive Tracks (initial : FileTree) (source : Path) (tree : FileTree) (bytes : ByteArray) :
    Slot → Prop
  | queued : Tracks initial source tree bytes queued
  | waiting (w : WaitingJob) (answer : Option JobEvent) (place : Location)
      (hawaits : Awaits initial source tree bytes w answer place) :
      Tracks initial source tree bytes (waiting w answer)
  | delivered (result : JobResult) (output : Path) (transcoded : Bool) (place : Location)
      (hdelivers : result.Delivers output transcoded) (hplace : tree.place? output = some place)
      (hnew : initial.get? place = none) (hfile : tree.get? place = some (.file bytes))
      (hsource : transcoded = false → ∀ content, initial.read source = .ok content →
        bytes = content) :
      Tracks initial source tree bytes (ended (.finished result))
  | failed (ending : JobEnd) (hfails : ending.Fails) :
      Tracks initial source tree bytes (ended ending)

/-- A job that goes on waiting after changes to the tree: what is said of places stays, and what is
said of its output is for the step to show. -/
theorem Awaits.step {initial tree after : FileTree} {source : Path} {bytes bytes' : ByteArray}
    {w next : WaitingJob} {answer kept : Option JobEvent} {place : Location}
    {places : List Location} (hawaits : Awaits initial source tree bytes w answer place)
    (hjob : next.job = w.job) (hframe : ChangesOnlyAt places tree after)
    (hmade : next.stage.isCopying = false → after.get? place = some (.file bytes'))
    (hguarded : next.stage = .copying none → ∃ content, after.get? place = some (.file content))
    (hcopied : kept = some (.copied (.ok ())) → next.stage.isCopying = true ∧
      after.get? place = some (.file bytes') ∧ ∀ content, initial.read source = .ok content →
        bytes' = content) :
    Awaits initial source after bytes' next kept place where
  place? := hjob ▸ hframe.place? hawaits.place?
  isNew := hawaits.isNew
  job := hjob ▸ hawaits.job
  sourcePlace := hframe.keeps.isSome_place? hawaits.sourcePlace
  made := hmade
  guarded := hguarded
  copied := hcopied

/-! ## Holding a place -/

section Holding

variable {initial tree after : FileTree} {source : Path} {bytes : ByteArray} {slot : Slot}
  {place : Location}

theorem not_holds_queued : ¬ Holds tree queued place := by
  rintro ⟨path, houtput, -⟩
  cases houtput

theorem not_holds_of_fails {ending : JobEnd} (hfails : ending.Fails) :
    ¬ Holds tree (ended ending) place := by
  rintro ⟨path, houtput, -⟩
  cases ending with
  | finished result =>
      have hnone : result.output = none := hfails.2
      rw [output?, hnone] at houtput
      cases houtput
  | cancelled => cases houtput
  | crashed crash => cases houtput

theorem holds_waiting_iff {w : WaitingJob} {answer : Option JobEvent} :
    Holds tree (waiting w answer) place ↔ tree.place? w.job.output = some place := by
  simp [Holds, output?]

theorem holds_delivered_iff {result : JobResult} {output : Path} {transcoded : Bool}
    (hdelivers : result.Delivers output transcoded) :
    Holds tree (ended (.finished result)) place ↔ tree.place? output = some place := by
  simp [Holds, output?, hdelivers.output]

theorem Holds.mono (hkeeps : tree.KeepsDirectories after) (hholds : Holds tree slot place) :
    Holds after slot place := by
  obtain ⟨path, houtput, hplace⟩ := hholds
  exact ⟨path, houtput, hkeeps.place? hplace⟩

theorem Holds.unique {other : Location} (hholds : Holds tree slot place)
    (hother : Holds tree slot other) : place = other := by
  obtain ⟨path, houtput, hplace⟩ := hholds
  obtain ⟨path', houtput', hplace'⟩ := hother
  obtain rfl : path = path' := Option.some.inj (houtput.symm.trans houtput')
  exact Option.some.inj (hplace.symm.trans hplace')

/-- The place of an output was free before any work. -/
theorem Tracks.isNew (htracks : Tracks initial source tree bytes slot)
    (hholds : Holds tree slot place) : initial.get? place = none := by
  cases htracks with
  | queued => exact absurd hholds not_holds_queued
  | waiting w answer place' hawaits =>
      obtain rfl := hholds.unique (holds_waiting_iff.2 hawaits.place?)
      exact hawaits.isNew
  | delivered result output transcoded place' hdelivers hplace hnew =>
      obtain rfl := hholds.unique ((holds_delivered_iff hdelivers).2 hplace)
      exact hnew
  | failed ending hfails => exact absurd hholds (not_holds_of_fails hfails)

/-- A job that tracks its output has a place for it, if it has an output. -/
theorem Tracks.exists_holds (htracks : Tracks initial source tree bytes slot) {path : Path}
    (houtput : slot.output? = some path) :
    ∃ place, tree.place? path = some place ∧ Holds tree slot place := by
  cases htracks with
  | queued => cases houtput
  | waiting w answer place hawaits =>
      obtain rfl : w.job.output = path := Option.some.inj houtput
      exact ⟨place, hawaits.place?, holds_waiting_iff.2 hawaits.place?⟩
  | delivered result output transcoded place hdelivers hplace =>
      obtain rfl : output = path := Option.some.inj (hdelivers.output.symm.trans houtput)
      exact ⟨place, hplace, (holds_delivered_iff hdelivers).2 hplace⟩
  | failed ending hfails =>
      exfalso
      cases ending with
      | finished result => cases hfails.2.symm.trans houtput
      | cancelled => cases houtput
      | crashed crash => cases houtput

/-- A job that tracks its output does not come to hold a place by what others do. -/
theorem Tracks.holds_of_after (htracks : Tracks initial source tree bytes slot)
    (hkeeps : tree.KeepsDirectories after) (hholds : Holds after slot place) :
    Holds tree slot place := by
  obtain ⟨path, houtput, hplace⟩ := hholds
  obtain ⟨place', hplace', hbefore⟩ := htracks.exists_holds houtput
  obtain rfl : place' = place := Option.some.inj ((hkeeps.place? hplace').symm.trans hplace)
  exact hbefore

/-- Nothing stands at the output of a job only while it waits for a copy. -/
theorem Tracks.isCopying_of_none (htracks : Tracks initial source tree bytes slot)
    (hholds : Holds tree slot place) (hnone : tree.get? place = none) :
    ∃ w answer, slot = Slot.waiting w answer ∧ w.stage.isCopying = true := by
  cases htracks with
  | queued => exact absurd hholds not_holds_queued
  | waiting w answer place' hawaits =>
      obtain rfl := hholds.unique (holds_waiting_iff.2 hawaits.place?)
      refine ⟨w, answer, rfl, ?_⟩
      rcases hcopying : w.stage.isCopying with _ | _
      · rw [hawaits.made hcopying] at hnone
        cases hnone
      · rfl
  | delivered result output transcoded place' hdelivers hplace _ hfile =>
      obtain rfl := hholds.unique ((holds_delivered_iff hdelivers).2 hplace)
      rw [hfile] at hnone
      cases hnone
  | failed ending hfails => exact absurd hholds (not_holds_of_fails hfails)

/-- Changes elsewhere do not disturb a job. -/
theorem Tracks.frame (htracks : Tracks initial source tree bytes slot) {places : List Location}
    (hchanges : ChangesOnlyAt places tree after)
    (happart : ∀ l ∈ places, ¬ Holds tree slot l) : Tracks initial source after bytes slot := by
  cases htracks with
  | queued => exact .queued
  | waiting w answer place hawaits =>
      have hplace : place ∉ places := fun h =>
        happart place h (holds_waiting_iff.2 hawaits.place?)
      refine .waiting w answer place (hawaits.step rfl hchanges ?_ ?_ ?_)
      · intro hstage
        exact hchanges.file hplace (hawaits.made hstage)
      · intro hstage
        obtain ⟨content, hfile⟩ := hawaits.guarded hstage
        exact ⟨content, hchanges.file hplace hfile⟩
      · intro hanswer
        obtain ⟨hstage, hfile, hbytes⟩ := hawaits.copied hanswer
        exact ⟨hstage, hchanges.file hplace hfile, hbytes⟩
  | delivered result output transcoded place hdelivers hplace hnew hfile hsource =>
      have hapart : place ∉ places := fun h =>
        happart place h ((holds_delivered_iff hdelivers).2 hplace)
      exact .delivered result output transcoded place hdelivers (hchanges.place? hplace) hnew
        (hchanges.file hapart hfile) hsource
  | failed ending hfails => exact .failed ending hfails

end Holding

/-! ## One move -/

/-- A move changes files only at the output of its job.  An output that is new to the job was free
before, and no file stands at an output that the job gives up. -/
structure Confined (tree : FileTree) (slot : Slot) (after : FileTree) (next : Slot) : Prop where
  frame : ∃ places, ChangesOnlyAt places tree after ∧
    ∀ l ∈ places, Holds tree slot l ∨ tree.get? l = none ∧ Holds after next l
  held : ∀ l, Holds after next l → Holds tree slot l ∨ slot = queued ∧ tree.get? l = none
  released : ∀ l, Holds tree slot l → Holds after next l ∨
    ∀ content, after.get? l ≠ some (.file content)

section Moving

variable {initial tree after : FileTree} {source : Path} {bytes : ByteArray} {slot next : Slot}
  {place : Location} {w : WaitingJob} {answer : Option JobEvent}

theorem confined_refl (tree : FileTree) (slot : Slot) : Confined tree slot tree slot :=
  ⟨⟨[], .refl [] tree, by simp⟩, fun _ h => .inl h, fun _ h => .inl h⟩

/-- A job that keeps its output is confined to the place of it. -/
theorem confined_of_output {output : Path} (houtput : slot.output? = some output)
    (hplace : tree.place? output = some place) (hframe : ChangesOnlyAt [place] tree after)
    (hnext : next.output? = some output) : Confined tree slot after next := by
  have hholds : Holds tree slot place := ⟨output, houtput, hplace⟩
  have hafter : Holds after next place := ⟨output, hnext, hframe.place? hplace⟩
  refine ⟨⟨[place], hframe, ?_⟩, ?_, ?_⟩
  · intro l hl
    rw [List.mem_singleton.1 hl]
    exact .inl hholds
  · intro l hl
    rw [hl.unique hafter]
    exact .inl hholds
  · intro l hl
    rw [hl.unique hholds]
    exact .inl hafter

theorem confined_of_fails {ending : JobEnd} (hfails : ending.Fails)
    (hplace : tree.place? w.job.output = some place) (hframe : ChangesOnlyAt [place] tree after)
    (hgone : ∀ content, after.get? place ≠ some (.file content)) :
    Confined tree (waiting w answer) after (ended ending) := by
  have hholds : Holds tree (waiting w answer) place := holds_waiting_iff.2 hplace
  refine ⟨⟨[place], hframe, ?_⟩, fun l h => absurd h (not_holds_of_fails hfails), ?_⟩
  · intro l hl
    rw [List.mem_singleton.1 hl]
    exact .inl hholds
  · intro l hl
    rw [hl.unique hholds]
    exact .inr hgone

/-- The first step of a job begins the tracking of its output. -/
theorem start_tracks {outcome : FileTree × JobProgress} (hextends : initial.Extends tree)
    (heffect : FileJob.StartEffect source tree outcome) :
    Tracks initial source (ofOutcome outcome none).1 ByteArray.empty (ofOutcome outcome none).2 ∧
      Confined tree queued (ofOutcome outcome none).1 (ofOutcome outcome none).2 := by
  cases heffect with
  | begins reserved w place hsource hjob hstage hreserves =>
      obtain ⟨content, hread⟩ := hsource
      obtain ⟨l, hl, -⟩ := FileTree.read_eq_ok_iff.1 hread
      have hsourcePlace : (tree.place? source).isSome := by simp [hl]
      have hholds : Holds reserved (waiting w none) place := holds_waiting_iff.2 hreserves.place?
      have hawaits : Awaits initial source reserved ByteArray.empty w none place :=
        { place? := hreserves.place?
          isNew := hextends.of_none hreserves.wasFree
          job := hjob
          sourcePlace := hreserves.frame.keeps.isSome_place? hsourcePlace
          made := fun _ => hreserves.isEmpty
          guarded := fun _ => ⟨_, hreserves.isEmpty⟩
          copied := nofun }
      refine ⟨.waiting w none place hawaits, ⟨[place], hreserves.frame, ?_⟩, ?_,
        fun _ h => absurd h not_holds_queued⟩
      · intro l' hl'
        rw [List.mem_singleton.1 hl']
        exact .inr ⟨hreserves.wasFree, hholds⟩
      · intro l' hl'
        rw [hl'.unique hholds]
        exact .inr ⟨rfl, hreserves.wasFree⟩
  | ends left ending hfails hframe =>
      exact ⟨.failed ending hfails, ⟨[], hframe, by simp⟩,
        fun _ h => absurd h (not_holds_of_fails hfails), fun _ h => absurd h not_holds_queued⟩

/-- A later step keeps track of the output.  A pending answer may be kept over the step. -/
theorem step_tracks {event : JobEvent} (kept : Option JobEvent)
    {outcome : FileTree × JobProgress} (hawaits : Awaits initial source tree bytes w answer place)
    (hevent : event = .copied (.ok ()) → answer = some event)
    (hkept : kept = some (.copied (.ok ())) → answer = kept)
    (heffect : FileJob.StepEffect w event place tree outcome) :
    Tracks initial source (ofOutcome outcome kept).1 bytes (ofOutcome outcome kept).2 ∧
      Confined tree (waiting w answer) (ofOutcome outcome kept).1 (ofOutcome outcome kept).2 := by
  have hplace := hawaits.place?
  -- an answer of a copier that is kept is one that the job had before
  have hcopied : kept = some (.copied (.ok ())) → w.stage.isCopying = true ∧
      tree.get? place = some (.file bytes) ∧ ∀ content, initial.read source = .ok content →
        bytes = content := fun h => hawaits.copied ((hkept h).trans h)
  have hsame : ∀ {next : WaitingJob}, next.job = w.job →
      (waiting next kept).output? = some w.job.output := fun hjob => by rw [output?, hjob]
  cases heffect with
  | ignores =>
      refine ⟨.waiting w kept place { hawaits with copied := hcopied },
        confined_of_output rfl hplace (.refl _ tree) (hsame rfl)⟩
  | goesOn changed next hjob hfrom hto hframe =>
      have hfile := hawaits.made (by simp [hfrom, JobStage.isCopying])
      refine ⟨.waiting next kept place (hawaits.step hjob hframe ?_ ?_ ?_),
        confined_of_output rfl hplace hframe.of_nil (hsame hjob)⟩
      · exact fun _ => hframe.file List.not_mem_nil hfile
      · exact fun _ => ⟨bytes, hframe.file List.not_mem_nil hfile⟩
      · intro hanswer
        have hcopying := (hcopied hanswer).1
        rw [hfrom] at hcopying
        cases hcopying
  | fallsBack changed next failure hjob hfrom hto hframe hgone =>
      -- the output is gone, and nothing is asked of it until the copy has come to its end
      refine ⟨.waiting next kept place (hawaits.step hjob hframe ?_ ?_ ?_),
        confined_of_output rfl hplace hframe (hsame hjob)⟩
      · intro hcopying
        rw [hto] at hcopying
        cases hcopying
      · intro hdirect
        rw [hto] at hdirect
        cases hdirect
      · intro hanswer
        have hcopying := (hcopied hanswer).1
        rw [hfrom] at hcopying
        cases hcopying
  | abandons hfrom =>
      refine ⟨.waiting _ kept place (hawaits.step rfl (.refl [] tree) ?_ ?_ ?_),
        confined_of_output rfl hplace (.refl _ tree) (hsame rfl)⟩
      · intro hcopying
        cases hcopying
      · intro hdirect
        cases hdirect
      · intro hanswer
        exact ⟨rfl, (hcopied hanswer).2⟩
  | transcodes result hfrom hdelivers =>
      exact ⟨.delivered result _ true place hdelivers hplace hawaits.isNew (hawaits.made hfrom)
        (by simp), confined_of_output rfl hplace (.refl _ tree) hdelivers.output⟩
  | copies result hfrom hcopy hdelivers =>
      obtain ⟨-, hfile, hbytes⟩ := hawaits.copied (hcopy ▸ hevent hcopy)
      exact ⟨.delivered result _ false place hdelivers hplace hawaits.isNew hfile
        (fun _ => hbytes), confined_of_output rfl hplace (.refl _ tree) hdelivers.output⟩
  | fails left ending hfails hframe hgone =>
      exact ⟨.failed ending hfails, confined_of_fails hfails hplace hframe hgone⟩

/-- A tool or copier writes to the output of a job, if it can. -/
theorem write_tracks (content : ByteArray)
    (hawaits : Awaits initial source tree bytes w none place) :
    ∀ {outcome : Except FileError FileTree}, tree.write w.job.output content = outcome →
      let after := outcome.toOption.getD tree
      Tracks initial source after content (waiting w none) ∧
        Confined tree (waiting w none) after (waiting w none) := by
  have hplace := hawaits.place?
  rintro (e | written) hwrite
  · -- a directory is in the way, so a transcode has failed before and the job waits for a copy
    have hdirectory : tree.get? place = some .directory := by
      refine Decidable.byContradiction fun hfree => ?_
      rw [FileTree.write_eq_ok_iff.2 ⟨place, hplace, hfree, rfl⟩] at hwrite
      cases hwrite
    refine ⟨.waiting w none place { hawaits with made := ?_, copied := by simp },
      confined_refl tree _⟩
    intro hcopying
    rw [hawaits.made hcopying] at hdirectory
    cases hdirectory
  · obtain ⟨hframe, hfile⟩ := FileTree.write_changesOnlyAt hplace hwrite
    exact ⟨.waiting w none place
      (hawaits.step rfl hframe (fun _ => hfile) (fun _ => ⟨content, hfile⟩) nofun),
      confined_of_output rfl hplace hframe rfl⟩

/-- A plain copy for a job runs to its end. -/
theorem copy_tracks (hawaits : Awaits initial source tree bytes w none place)
    (hextends : initial.Extends tree) (hcopying : w.stage.isCopying = true) :
    ∀ {outcome : Except CopyError Unit},
      (OutputFile.copy tree w.job.source w.job.output).value = (after, outcome) →
      Tracks initial source after ((tree.read w.job.source).toOption.getD bytes)
          (waiting w (some (.copied outcome))) ∧
        Confined tree (waiting w none) after (waiting w (some (.copied outcome))) := by
  have hplace := hawaits.place?
  rintro (e | _) hcopy
  · have hframe := OutputFile.copy_error hcopy
    refine ⟨.waiting w _ place (hawaits.step rfl hframe ?_ ?_ (by simp)),
      confined_of_output rfl hplace hframe.of_nil rfl⟩
    · intro hbefore
      rw [hcopying] at hbefore
      cases hbefore
    · intro hdirect
      obtain ⟨content, hfile⟩ := hawaits.guarded hdirect
      exact ⟨content, hframe.file List.not_mem_nil hfile⟩
  · have hsource : (tree.place? w.job.source).isSome := hawaits.job ▸ hawaits.sourcePlace
    obtain ⟨content, hread, hfile, hframe⟩ := OutputFile.copy_ok hplace hsource hcopy
    rw [hread]
    have hbytes : ∀ content', initial.read source = .ok content' → content = content' := by
      intro content' hinitial
      rw [hawaits.job, hextends.read hinitial] at hread
      exact (Except.ok.inj hread).symm
    exact ⟨.waiting w _ place (hawaits.step rfl hframe (fun _ => hfile)
      (fun _ => ⟨content, hfile⟩) fun _ => ⟨hcopying, hfile, hbytes⟩),
      confined_of_output rfl hplace hframe rfl⟩

/-- **The step lemma.**  A move of a job keeps track of its output and is confined to it. -/
theorem move_tracks (c : ShowContext) (htracks : Tracks initial source tree bytes slot)
    (hextends : initial.Extends tree) {m : JobMove} (hhonest : m.IsHonest) :
    let (after, next) := (slot.move c source tree m).value
    Tracks initial source after (bytesAfter tree slot m bytes) next ∧
      Confined tree slot after next := by
  have heffect := move_effect c source tree bytes slot m
  generalize (slot.move c source tree m).value = outcome at heffect
  generalize bytesAfter tree slot m bytes = made at heffect
  cases heffect with
  | stays => exact ⟨htracks, confined_refl tree slot⟩
  | starts => exact start_tracks hextends (FileJob.start_effect c source tree)
  | writes w =>
      cases htracks with
      | waiting _ _ place hawaits => exact write_tracks _ hawaits rfl
  | copies w after outcome hcopying hcopy =>
      cases htracks with
      | waiting _ _ place hawaits => exact copy_tracks hawaits hextends hcopying hcopy
  | answers w event =>
      cases htracks with
      | waiting _ _ place hawaits =>
          refine ⟨.waiting w _ place { hawaits with copied := ?_ },
            confined_of_output rfl hawaits.place? (.refl _ tree) rfl⟩
          -- only a copy tells of a copy that has succeeded
          intro hcopied
          rw [Option.some.inj hcopied] at hhonest
          exact absurd hhonest id
  | cancels w answer =>
      cases htracks with
      | waiting _ _ place hawaits =>
          exact step_tracks answer hawaits (by simp) (fun _ => rfl)
            (FileJob.step_effect w .cancelled hawaits.place?)
  | goesOn w event =>
      cases htracks with
      | waiting _ _ place hawaits =>
          exact step_tracks none hawaits (fun _ => rfl) (by simp)
            (FileJob.step_effect w event hawaits.place?)

end Moving

end Slot

end BroadcastIntake
