import BroadcastIntake.Job.File

/-!
# Moves of a job

What can happen to one file of a show, from before its job starts until it has ended.  Between two
moves other things may happen to the file tree; so a move takes the tree as it finds it.

A tool or copier that works for a job may write to the output of the job until it has answered.
The job sees the answer when it goes on.  A cancellation takes the place of any answer that is
already there.
-/

namespace BroadcastIntake

/-- Where a file of a show stands. -/
inductive Slot where
  | queued
  /-- Its job waits; the answer is there once it has what it waits for. -/
  | waiting (job : WaitingJob) (answer : Option JobEvent)
  | ended (ending : JobEnd)

/-- What can happen next to a file. -/
inductive JobMove where
  /-- The job for the file starts. -/
  | start
  /-- A tool or copier writes to the output of the job. -/
  | write (content : ByteArray)
  /-- A plain copy for the job runs to its end. -/
  | copy
  /-- The job gets an answer from a tool or copier. -/
  | answer (event : JobEvent)
  /-- The job is cancelled. -/
  | cancel
  /-- The job goes on with the answer that it has. -/
  | goOn

namespace Slot

/-- Whether a job is under way. -/
def isActive : Slot → Bool
  | waiting _ _ => true
  | _ => false

/-- Whether a file has been dealt with. -/
def isEnded : Slot → Bool
  | ended _ => true
  | _ => false

/-- The slot after a step, and the tree that the step leaves.  A job that still waits for the same
copier as before keeps the answer of it. -/
def ofOutcome (outcome : FileTree × JobProgress) (kept : Option JobEvent) : FileTree × Slot :=
  match outcome with
  | (tree, .waits w) => (tree, .waiting w kept)
  | (tree, .ended ending) => (tree, .ended ending)

/-- The tree and the slot after a move.  A move that is not possible changes nothing; a job that
was cancelled and waits for a copy to end is not cancelled again. -/
def move (c : ShowContext) (source : Path) (tree : FileTree) (slot : Slot) (m : JobMove) :
    Logged (FileTree × Slot) :=
  match m, slot with
  | .start, queued => do return ofOutcome (← FileJob.start c source tree) none
  | .write content, waiting w none =>
    if w.stage.isWriting then
      match tree.write w.job.output content with
      | .ok written => return (written, slot)
      | .error _ => return (tree, slot)
    else return (tree, slot)
  | .copy, waiting w none => do
    if w.stage.isCopying then
      let (copied, outcome) ← OutputFile.copy tree w.job.source w.job.output
      return (copied, waiting w (some (.copied outcome)))
    else return (tree, slot)
  | .answer event, waiting w none => return (tree, waiting w (some event))
  | .cancel, waiting w answer => do
    if w.stage = .abandoning then return (tree, slot)
    else return ofOutcome (← FileJob.step w .cancelled tree) answer
  | .goOn, waiting w (some event) => do return ofOutcome (← FileJob.step w event tree) none
  | _, _ => return (tree, slot)

/-- The tree and the slot after a sequence of moves with nothing in between. -/
def moves (c : ShowContext) (source : Path) (tree : FileTree) (slot : Slot) :
    List JobMove → Logged (FileTree × Slot)
  | [] => return (tree, slot)
  | m :: rest => do
    let (changed, next) ← slot.move c source tree m
    moves c source changed next rest

end Slot

end BroadcastIntake
