import BroadcastIntake.Job.Moves
import BroadcastIntake.Job.Run
import BroadcastIntake.Batch.Stats

/-!
# Batches

A batch works on the files of a show with a limited number of workers.  Its jobs share one file
tree, and their steps follow each other in any order: a batch moves by starting a job, by tools and
copiers that work for a job, and by a job that goes on.  Whatever is stated of all sequences of
moves holds of every order in which a batch can run.

A crash ends only the job it happens in, as a failed result.
-/

namespace BroadcastIntake

/-- A batch under way. -/
structure Batch where
  context : ShowContext
  workers : Nat
  slots : List (Path × Slot)
  tree : FileTree

/-- What can happen next in a batch: a move of the job of the file at a position. -/
structure BatchMove where
  position : Nat
  move : JobMove

namespace Batch

def logger : String := "radio_ingest.parallel_processor"

def ofFiles (context : ShowContext) (workers : Nat) (files : List Path) (tree : FileTree) :
    Batch :=
  { context, workers, slots := files.map fun file => (file, .queued), tree }

/-- How many jobs are under way. -/
def activeCount (b : Batch) : Nat :=
  b.slots.countP fun s => s.2.isActive

/-- What comes of the job of a file in the end: a crash becomes a failed result. -/
def resultOf : JobEnd → Option JobResult
  | .finished result => some result
  | .crashed crash => some (JobResult.refused s!"Unexpected error: {crash.message}")
  | .cancelled => none

/-- Whether a move has to wait until a worker is free. -/
def isHeldUp (b : Batch) : JobMove → Bool
  | .start => b.workers ≤ b.activeCount
  | _ => false

/-- Tells of a job that a move made crash. -/
def tellCrash (source : Path) (before after : Slot) : Logged Unit :=
  match before, after with
  | .ended _, _ => return ()
  | _, .ended (.crashed _) =>
    Logged.tell .error logger s!"Unexpected error processing {source.name}"
  | _, _ => return ()

/-- The batch after a move.  A move that is not possible changes nothing. -/
def move (b : Batch) (m : BatchMove) : Logged Batch :=
  match b.slots[m.position]? with
  | none => return b
  | some (source, slot) => do
    if b.isHeldUp m.move then return b
    let (tree, next) ← slot.move b.context source b.tree m.move
    tellCrash source slot next
    return { b with tree, slots := b.slots.set m.position (source, next) }

def moves (b : Batch) : List BatchMove → Logged Batch
  | [] => return b
  | m :: rest => do moves (← b.move m) rest

/-- The results of the files that have been dealt with, in the order of the batch. -/
def results (b : Batch) : List (Path × JobResult) :=
  b.slots.filterMap fun (source, slot) =>
    match slot with
    | .ended ending => (resultOf ending).map (source, ·)
    | _ => none

/-! ## One order of moves -/

/-- A batch under way with the calls of tools up to here, and the positions of the files that have
been dealt with, in that order. -/
structure Progress where
  batch : Batch
  calls : List ToolCall
  finished : List Nat

/-- Notes that the file at a position has been dealt with, if it has. -/
def noteEnd (position : Nat) (p : Progress) : Progress :=
  match p.batch.slots[position]? with
  | some (_, .ended _) =>
    if p.finished.contains position then p else { p with finished := p.finished ++ [position] }
  | _ => p

/-- Lets the file at a position go on by one step: it is started when a worker is free, and a job
that waits gets its answer. -/
def advance (s : Surroundings) (position : Nat) (p : Progress) : Logged Progress := do
  let b := p.batch
  match b.slots[position]? with
  | some (_, .queued) => return noteEnd position { p with batch := ← b.move ⟨position, .start⟩ }
  | some (_, .waiting w none) =>
    let r ← s.reply w b.tree
    let p : Progress :=
      { p with batch := { b with tree := r.tree }, calls := p.calls ++ r.calls }
    match r.event with
    | none => return p
    | some event =>
      let answered ← p.batch.move ⟨position, .answer event⟩
      return noteEnd position { p with batch := ← answered.move ⟨position, .goOn⟩ }
  | _ => return p

/-- Whether the job of the file at a position waits for a tool, which answers at once. -/
def isAtTool (b : Batch) (position : Nat) : Bool :=
  match b.slots[position]? with
  | some (_, .waiting w none) => !w.stage.isCopying
  | _ => false

/-- Lets the file at a position go on until its job waits for a copy or has ended, in at most
`n + 1` steps.  Only a copy takes so long that other jobs go on before it has ended. -/
def advanceToCopy (s : Surroundings) (position : Nat) : Nat → Progress → Logged Progress
  | 0, p => advance s position p
  | n + 1, p => do
    let next ← advance s position p
    if isAtTool next.batch position then advanceToCopy s position n next else return next

/-- Lets every file go on until its job waits for a copy or has ended, in the order of the batch. -/
def advanceAll (s : Surroundings) : List Nat → Progress → Logged Progress
  | [], p => return p
  | position :: rest, p => do
    advanceAll s rest (← advanceToCopy s position JobRun.stepLimit p)

/-- Goes through all files again and again, at most `rounds` times. -/
def runRounds (s : Surroundings) : Nat → Progress → Logged Progress
  | 0, p => return p
  | n + 1, p => do
    if p.batch.slots.all fun slot => slot.2.isEnded then return p
    else runRounds s n (← advanceAll s (List.range p.batch.slots.length) p)

/-- Works on all files.  In every round some job takes a step, so the rounds suffice. -/
def run (s : Surroundings) (b : Batch) : Logged Progress :=
  runRounds s ((JobRun.stepLimit + 1) * b.slots.length + 1) ⟨b, [], []⟩

/-- The file at a position with its result, once it has been dealt with. -/
def resultAt (b : Batch) (position : Nat) : Option (Path × JobResult) :=
  match b.slots[position]? with
  | some (source, .ended ending) => (resultOf ending).map (source, ·)
  | _ => none

/-- The results in the order in which the files were dealt with. -/
def Progress.results (p : Progress) : List (Path × JobResult) :=
  p.finished.filterMap p.batch.resultAt

end Batch

end BroadcastIntake
