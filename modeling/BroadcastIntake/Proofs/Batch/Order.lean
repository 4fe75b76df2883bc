import BroadcastIntake.Proofs.Batch.Ownership
import BroadcastIntake.Proofs.Batch.Planned
import Mathlib

/-!
# The order of jobs makes no difference

The jobs of a batch whose outputs do not clash take turns, in any order that the workers allow.
The batch stays in step with its files when each is alone (`InStep`): after so many turns of a file,
its slot and what stands at its place are those of the file alone in the first tree after as many
turns.  A turn of one file keeps this for all of them (`InStep.turn`), so every sequence of turns
does, and once all files have been dealt with nothing is left that could depend on the order
(`endsAs_oneByOne`).

A source that is the planned output of another file is looked for before or after that output is
made: then the order does make a difference.
-/

namespace BroadcastIntake

namespace Batch

/-- The batch after a turn of the file at a position.  A job for which no worker is free does not
start. -/
def turn (b : Batch) (h : Helpers) (position : Nat) : Batch :=
  match b.slots[position]? with
  | some (_, slot) => (b.moves ((h.segment b.tree slot).map (⟨position, ·⟩))).value
  | none => b

/-- The batch after turns of the files at the given positions, in this order. -/
def turns (b : Batch) (h : Helpers) : List Nat → Batch
  | [] => b
  | position :: rest => (b.turn h position).turns h rest

/-- Two batches have come to the same end: the same of every file, and the same tree. -/
structure EndsAs (a b : Batch) : Prop where
  slots : a.slots = b.slots
  results : a.results = b.results
  workingDirectory : a.tree.workingDirectory = b.tree.workingDirectory
  entries : ∀ l, a.tree.get? l = b.tree.get? l

/-- All files have been dealt with. -/
def isSettled (b : Batch) : Bool :=
  b.slots.all fun entry => entry.2.isEnded

/-- Seven turns of the first file, then of the second, and so on. -/
def oneByOne (length : Nat) : List Nat :=
  (List.range length).flatMap (List.replicate 7)

/-! ## A turn in a batch -/

section Turn

variable {b : Batch} {position : Nat} {source : Path} {slot : Slot}

/-- Moves that start no job are made by the job at their position. -/
theorem moves_eq (ms : List JobMove) :
    ∀ {b : Batch} {slot : Slot}, b.slots[position]? = some (source, slot) →
      (∀ m ∈ ms, m ≠ .start) →
      (b.moves (ms.map (⟨position, ·⟩))).value =
        { b with
          tree := (slot.moves b.context source b.tree ms).value.1
          slots := b.slots.set position
            (source, (slot.moves b.context source b.tree ms).value.2) } := by
  induction ms with
  | nil =>
      intro b slot hslot hms
      obtain ⟨hlt, hentry⟩ := List.getElem?_eq_some_iff.1 hslot
      simp [moves, Slot.moves, ← hentry]
  | cons m rest ih =>
      intro b slot hslot hms
      have hheld : b.isHeldUp m = false := by
        cases m with
        | start => exact absurd rfl (hms _ List.mem_cons_self)
        | write | copy | answer | cancel | goOn => rfl
      have hmoved := move_eq (m := ⟨position, m⟩) hslot hheld
      obtain ⟨hlt, -⟩ := List.getElem?_eq_some_iff.1 hslot
      have hnext : (b.move ⟨position, m⟩).value.slots[position]? =
          some (source, (slot.move b.context source b.tree m).value.2) := by
        rw [hmoved]
        simp [hlt]
      simp only [List.map_cons, moves, Logged.value_bind, Slot.moves]
      rw [ih hnext fun m hm => hms m (List.mem_cons_of_mem _ hm), hmoved]
      simp

theorem ne_start_of_mem_segment (h : Helpers) (tree : FileTree) (hslot : slot ≠ .queued)
    {m : JobMove} (hm : m ∈ h.segment tree slot) : m ≠ .start := by
  have hdelivery : ∀ {left event}, m ∈ Helpers.delivery left event → m ≠ .start := by
    rintro left event hm rfl
    cases left <;> simp [Helpers.delivery] at hm
  rintro rfl
  obtain _ | ⟨w, _ | event⟩ | ending := slot
  · exact hslot rfl
  · simp only [Helpers.segment, Helpers.work] at hm
    rcases hstage : w.stage with _ | ⟨probe, chain⟩ | failure | _ <;> simp only [hstage] at hm
    · simp at hm
    · exact hdelivery hm rfl
    all_goals
      rcases hcopier : h.copier with _ | copier <;> simp only [hcopier] at hm
      · simp at hm
      · exact hdelivery hm rfl
  · simp [Helpers.segment] at hm
  · simp [Helpers.segment] at hm

/-- A turn in a batch is a turn of the file at its position, unless it waits for a worker. -/
theorem turn_eq (h : Helpers) (hslot : b.slots[position]? = some (source, slot))
    (hfree : slot = .queued → b.activeCount < b.workers) :
    b.turn h position =
      { b with
        tree := (h.turn b.context source (b.tree, slot)).1
        slots := b.slots.set position (source, (h.turn b.context source (b.tree, slot)).2) } := by
  have hmoves : b.turn h position =
      (b.moves ((h.segment b.tree slot).map (⟨position, ·⟩))).value := by
    simp only [turn, hslot]
  by_cases hqueued : slot = .queued
  · subst hqueued
    have hheld : b.isHeldUp .start = false := decide_eq_false (Nat.not_le.2 (hfree rfl))
    have hmoved := move_eq (m := ⟨position, .start⟩) hslot hheld
    rw [hmoves]
    simpa [Helpers.segment, moves, Helpers.turn, Slot.moves] using hmoved
  · rw [hmoves, moves_eq _ hslot fun m hm => ne_start_of_mem_segment h b.tree hqueued hm]
    rfl

/-- A turn changes nothing for a file that waits for a worker, and where there is no file. -/
theorem turn_eq_self (h : Helpers) (hidle : b.slots[position]? = none ∨
    ∃ source, b.slots[position]? = some (source, .queued) ∧ b.workers ≤ b.activeCount) :
    b.turn h position = b := by
  rcases hidle with hnone | ⟨source, hslot, hheld⟩
  · simp only [turn, hnone]
  · have hheld' : b.isHeldUp .start = true := decide_eq_true hheld
    simp [turn, hslot, Helpers.segment, moves, move, hheld']

theorem workers_moves (ms : List BatchMove) : (b.moves ms).value.workers = b.workers := by
  induction ms generalizing b with
  | nil => rfl
  | cons m rest ih =>
      simp only [moves, Logged.value_bind]
      rw [ih, workers_move]

theorem workers_turn (h : Helpers) : (b.turn h position).workers = b.workers := by
  unfold turn
  split
  · exact workers_moves _
  · rfl

theorem workers_turns (h : Helpers) (schedule : List Nat) :
    (b.turns h schedule).workers = b.workers := by
  induction schedule generalizing b with
  | nil => rfl
  | cons position rest ih => exact ih.trans (workers_turn h)

theorem turns_append (h : Helpers) (first second : List Nat) :
    b.turns h (first ++ second) = (b.turns h first).turns h second := by
  induction first generalizing b with
  | nil => rfl
  | cons position rest ih => exact ih

end Turn

end Batch

namespace BatchPlan

open Batch (oneByOne)

/-- The tree and the slot after some turns of a file that is alone in the first tree. -/
def alone (p : BatchPlan) (h : Helpers) (file : Path) (n : Nat) : FileTree × Slot :=
  h.turns p.context file p.tree n

/-- The batch before any work, with the given number of workers. -/
def start (p : BatchPlan) (workers : Nat) : Batch :=
  .ofFiles p.context workers p.files p.tree

/-- What each file is like in the batch is what it is like alone, after as many turns of it. -/
structure InStep (p : BatchPlan) (h : Helpers) (counts : Path → Nat) (b : Batch) : Prop where
  context : b.context = p.context
  slots : b.slots = p.files.map fun file => (file, (p.alone h file (counts file)).2)
  places : ∀ file ∈ p.files,
    b.tree.get? (p.place file) = (p.alone h file (counts file)).1.get? (p.place file)
  /-- Nothing has been done to the tree until a file is taken on. -/
  tree : b.tree = p.tree ∧ (∀ file ∈ p.files, p.IsTakenOn file → counts file = 0) ∨
    p.IsUnderway b.tree ∧ ∃ file ∈ p.files, p.IsTakenOn file

/-- A turn of a file took the batch from one tree to another as it took the file when it was
alone, and did nothing to the other files. -/
structure LikeAlone (p : BatchPlan) (file : Path) (before : FileTree)
    (after lone : FileTree × Slot) : Prop where
  slot : after.2 = lone.2
  place : after.1.get? (p.place file) = lone.1.get? (p.place file)
  others : ∀ other ∈ p.files, other ≠ file →
    after.1.get? (p.place other) = before.get? (p.place other)
  refused : ¬ p.IsTakenOn file → after.1 = before
  underway : p.IsTakenOn file → p.IsUnderway after.1

section Step

variable {p : BatchPlan} {h : Helpers} {file : Path}

/-! ## A file alone -/

theorem alone_succ (p : BatchPlan) (h : Helpers) (file : Path) (n : Nat) :
    p.alone h file (n + 1) = h.turn p.context file (p.alone h file n) :=
  rfl

theorem alone_of_refused (h : Helpers) (hclear : p.HasNoClash) (hspares : p.SparesSources)
    (hfile : file ∈ p.files) (htaken : ¬ p.IsTakenOn file) :
    ∃ ending : JobEnd, ending.Fails ∧
      (∀ n, p.alone h file (n + 1) = (p.tree, .ended ending)) ∧
      ∀ tree, p.IsReached tree → tree.get? (p.place file) = none →
        h.turn p.context file (tree, .queued) = (tree, .ended ending) := by
  obtain ⟨ending, hfails, hturn⟩ := turn_of_refused h hclear hspares hfile htaken
  refine ⟨ending, hfails, fun n => ?_, hturn⟩
  induction n with
  | zero => exact hturn p.tree (.inl rfl) (hclear.free_tree hfile)
  | succ n ih => rw [alone_succ, ih, h.turn_ended]

theorem IsReadyFor.isReached {slot : Slot} {tree : FileTree}
    (hready : p.IsReadyFor file slot tree) : p.IsReached tree := by
  rcases hready with ⟨-, hreached, -⟩ | ⟨-, hunder⟩
  · exact hreached
  · exact .inr hunder

/-- A file that is taken on keeps to its job when it is alone, and is always ready for a turn. -/
theorem alone_of_isTakenOn (h : Helpers) (hclear : p.HasNoClash) (hspares : p.SparesSources)
    (hfile : file ∈ p.files) (htaken : p.IsTakenOn file) (n : Nat) :
    (p.alone h file n).2.Serves (p.job file) ∧
      p.IsReadyFor file (p.alone h file n).2 (p.alone h file n).1 := by
  induction n with
  | zero => exact ⟨trivial, .inl ⟨rfl, .inl rfl, hclear.free_tree hfile⟩⟩
  | succ n ih =>
      obtain ⟨hserves, hready⟩ := ih
      obtain ⟨change, next, hstarted, hnext, hturn⟩ :=
        exists_turn h hclear hspares hfile htaken hserves
      obtain ⟨above, habove, hunder, -⟩ := hready.isReached.makeDirectories hclear
      rw [alone_succ, hturn _ hready, habove]
      exact ⟨hnext, .inr ⟨hstarted, hunder.apply hfile change⟩⟩

theorem alone_eq_queued {n : Nat} (hqueued : (p.alone h file n).2 = .queued) : n = 0 := by
  cases n with
  | zero => rfl
  | succ n => exact absurd hqueued (h.turn_ne_queued _ _ _)

/-! ## A batch in step -/

theorem inStep_start (p : BatchPlan) (h : Helpers) (workers : Nat) :
    p.InStep h (fun _ => 0) (p.start workers) where
  context := rfl
  slots := rfl
  places := fun _ _ => rfl
  tree := .inl ⟨rfl, fun _ _ _ => rfl⟩

/-- Changing what a list without repetitions holds at one place changes the map of it there. -/
theorem set_map_of_nodup {α β : Type} {l : List α} (hl : l.Nodup) {i : Nat} {a : α}
    (hi : l[i]? = some a) (f g : α → β) (hfg : ∀ b, b ≠ a → f b = g b) :
    (l.map f).set i (g a) = l.map g := by
  obtain ⟨hlt, rfl⟩ := List.getElem?_eq_some_iff.1 hi
  refine List.ext_getElem (by simp) fun j hj hj' => ?_
  rw [List.getElem_set]
  split
  · rename_i hij
    subst hij
    simp
  · rename_i hij
    have hlt' : j < l.length := by simpa using hj'
    have hne : l[j] ≠ l[i] := fun heq => hij (hl.getElem_inj_iff.1 heq.symm)
    simpa using hfg _ hne

namespace InStep

variable {counts : Path → Nat} {b : Batch} {position : Nat}

theorem getElem?_slots (hstep : p.InStep h counts b) (hposition : p.files[position]? = some file) :
    b.slots[position]? = some (file, (p.alone h file (counts file)).2) := by
  rw [hstep.slots, List.getElem?_map, hposition]
  rfl

theorem isReached (hstep : p.InStep h counts b) : p.IsReached b.tree := by
  rcases hstep.tree with ⟨htree, -⟩ | ⟨hunder, -⟩
  · exact .inl htree
  · exact .inr hunder

theorem get?_of_zero (hstep : p.InStep h counts b) (hclear : p.HasNoClash) (hfile : file ∈ p.files)
    (hzero : counts file = 0) : b.tree.get? (p.place file) = none := by
  rw [hstep.places file hfile, hzero]
  exact hclear.free_tree hfile

theorem isReadyFor (hstep : p.InStep h counts b) (hclear : p.HasNoClash) (hfile : file ∈ p.files)
    (htaken : p.IsTakenOn file) : p.IsReadyFor file (p.alone h file (counts file)).2 b.tree := by
  by_cases hqueued : (p.alone h file (counts file)).2 = .queued
  · exact .inl ⟨hqueued, hstep.isReached, hstep.get?_of_zero hclear hfile (alone_eq_queued hqueued)⟩
  · refine .inr ⟨hqueued, ?_⟩
    rcases hstep.tree with ⟨-, hzero⟩ | ⟨hunder, -⟩
    · rw [hzero file hfile htaken] at hqueued
      exact absurd rfl hqueued
    · exact hunder

/-- A turn of a file that is taken on does in the batch what it does for the file alone. -/
theorem turn_likeAlone_of_isTakenOn (hstep : p.InStep h counts b) (hclear : p.HasNoClash)
    (hspares : p.SparesSources) (hfile : file ∈ p.files) (htaken : p.IsTakenOn file) :
    p.LikeAlone file b.tree (h.turn p.context file (b.tree, (p.alone h file (counts file)).2))
      (p.alone h file (counts file + 1)) := by
  obtain ⟨hserves, halone⟩ := alone_of_isTakenOn h hclear hspares hfile htaken (counts file)
  obtain ⟨change, next, -, -, hturn⟩ := exists_turn h hclear hspares hfile htaken hserves
  have hready := hstep.isReadyFor hclear hfile htaken
  obtain ⟨above, habove, hunder, hsame⟩ := hstep.isReached.makeDirectories hclear
  obtain ⟨above', habove', hunder', hsame'⟩ := halone.isReached.makeDirectories hclear
  have hafter := hturn b.tree hready
  have hlone := hturn (p.alone h file (counts file)).1 halone
  rw [habove] at hafter
  rw [habove'] at hlone
  have hget := change.get?_apply (hunder.vacant file hfile)
  have hget' := change.get?_apply (hunder'.vacant file hfile)
  rw [alone_succ, hafter, hlone]
  refine
    { slot := rfl
      place := ?_
      others := fun other hother hne => ?_
      refused := fun hnot => absurd htaken hnot
      underway := fun _ => hunder.apply hfile change }
  · rw [hget, hget', if_pos rfl, if_pos rfl, hsame file hfile, hsame' file hfile,
      hstep.places file hfile]
  · rw [hget, if_neg (hclear.ne_of_mem hfile hother hne), hsame other hother]

/-- A file that is refused ends with its first turn, in the batch and alone, and then stays. -/
theorem turn_likeAlone_of_refused (hstep : p.InStep h counts b) (hclear : p.HasNoClash)
    (hspares : p.SparesSources) (hfile : file ∈ p.files) (htaken : ¬ p.IsTakenOn file) :
    p.LikeAlone file b.tree (h.turn p.context file (b.tree, (p.alone h file (counts file)).2))
      (p.alone h file (counts file + 1)) := by
  obtain ⟨ending, -, hlone, hturn⟩ := alone_of_refused h hclear hspares hfile htaken
  have hafter : h.turn p.context file (b.tree, (p.alone h file (counts file)).2) =
      (b.tree, .ended ending) := by
    rcases hcount : counts file with _ | n
    · exact hturn b.tree hstep.isReached (hstep.get?_of_zero hclear hfile hcount)
    · rw [hlone n]
      exact h.turn_ended b.tree ending
  have hplace : b.tree.get? (p.place file) = none := by
    rw [hstep.places file hfile]
    rcases counts file with _ | n
    · exact hclear.free_tree hfile
    · rw [hlone n]
      exact hclear.free_tree hfile
  rw [hafter, hlone]
  exact
    { slot := rfl
      place := by rw [hplace, hclear.free_tree hfile]
      others := fun _ _ _ => rfl
      refused := fun _ => rfl
      underway := fun h => absurd h htaken }

theorem turn_likeAlone (hstep : p.InStep h counts b) (hclear : p.HasNoClash)
    (hspares : p.SparesSources) (hfile : file ∈ p.files) :
    p.LikeAlone file b.tree (h.turn p.context file (b.tree, (p.alone h file (counts file)).2))
      (p.alone h file (counts file + 1)) := by
  by_cases htaken : p.IsTakenOn file
  · exact hstep.turn_likeAlone_of_isTakenOn hclear hspares hfile htaken
  · exact hstep.turn_likeAlone_of_refused hclear hspares hfile htaken

/-- **One turn of a batch.**  A turn of a file that need not wait for a worker keeps the batch in
step. -/
theorem turn (hstep : p.InStep h counts b) (hclear : p.HasNoClash) (hspares : p.SparesSources)
    (hposition : p.files[position]? = some file)
    (hfree : (p.alone h file (counts file)).2 = .queued → b.activeCount < b.workers) :
    p.InStep h (Function.update counts file (counts file + 1)) (b.turn h position) := by
  have hfile := List.mem_of_getElem? hposition
  have hnodup := hclear.distinct.of_map
  have hlike := hstep.turn_likeAlone hclear hspares hfile
  rw [b.turn_eq h (hstep.getElem?_slots hposition) hfree, hstep.context]
  have hupdate : ∀ other ≠ file,
      Function.update counts file (counts file + 1) other = counts other := fun other hne =>
    Function.update_of_ne hne _ _
  have hself := Function.update_self file (counts file + 1) counts
  refine ⟨rfl, ?_, fun other hother => ?_, ?_⟩
  · dsimp only
    rw [hstep.slots, hlike.slot]
    have hset := set_map_of_nodup hnodup hposition
      (fun other => (other, (p.alone h other (counts other)).2))
      (fun other => (other,
        (p.alone h other (Function.update counts file (counts file + 1) other)).2))
      fun other hne => by rw [hupdate other hne]
    rw [← hset, hself]
  · dsimp only
    by_cases hother' : other = file
    · rw [hother', hself, hlike.place]
    · rw [hupdate other hother', hlike.others other hother hother', hstep.places other hother]
  · by_cases htaken : p.IsTakenOn file
    · exact .inr ⟨hlike.underway htaken, file, hfile, htaken⟩
    · dsimp only
      rw [hlike.refused htaken]
      rcases hstep.tree with ⟨htree, hzero⟩ | hunder
      · refine .inl ⟨htree, fun other hother htaken' => ?_⟩
        have hne : other ≠ file := by
          rintro rfl
          exact htaken htaken'
        rw [hupdate other hne, hzero other hother htaken']
      · exact .inr hunder

/-- Every turn keeps the batch in step, whether or not the file waits for a worker. -/
theorem exists_turn (hstep : p.InStep h counts b) (hclear : p.HasNoClash)
    (hspares : p.SparesSources) (position : Nat) :
    ∃ counts', p.InStep h counts' (b.turn h position) := by
  rcases hposition : p.files[position]? with _ | file
  · have hnone : b.slots[position]? = none := by
      rw [hstep.slots, List.getElem?_map, hposition]
      rfl
    exact ⟨counts, by rwa [b.turn_eq_self h (.inl hnone)]⟩
  · by_cases hheld : (p.alone h file (counts file)).2 = .queued ∧ b.workers ≤ b.activeCount
    · have hslot := hstep.getElem?_slots hposition
      rw [hheld.1] at hslot
      exact ⟨counts, by rwa [b.turn_eq_self h (.inr ⟨file, hslot, hheld.2⟩)]⟩
    · exact ⟨_, hstep.turn hclear hspares hposition fun hqueued =>
        Nat.lt_of_not_le fun hle => hheld ⟨hqueued, hle⟩⟩

theorem exists_turns (schedule : List Nat) (hclear : p.HasNoClash) (hspares : p.SparesSources) :
    ∀ {counts : Path → Nat} {b : Batch}, p.InStep h counts b →
      ∃ counts', p.InStep h counts' (b.turns h schedule) := by
  induction schedule with
  | nil =>
      intro counts b hstep
      exact ⟨counts, hstep⟩
  | cons position rest ih =>
      intro counts b hstep
      obtain ⟨counts', hstep'⟩ := hstep.exists_turn hclear hspares position
      exact ih hstep'

/-! ## One file after the other -/

/-- No worker is taken as long as every file is queued or has been dealt with. -/
theorem activeCount_eq_zero (hstep : p.InStep h counts b)
    (hquiet : ∀ file ∈ p.files, counts file = 0 ∨ 7 ≤ counts file) : b.activeCount = 0 := by
  rw [Batch.activeCount, hstep.slots, List.countP_eq_zero]
  rintro entry hentry
  obtain ⟨file, hfile, rfl⟩ := List.mem_map.1 hentry
  have hnot : ∀ {slot : Slot}, slot.isEnded = true → ¬ slot.isActive = true := by
    rintro (_ | _ | _) hended <;> simp_all [Slot.isEnded, Slot.isActive]
  rcases hquiet file hfile with hzero | hseven
  · simp [hzero, alone, Helpers.turns, Slot.isActive]
  · exact hnot (h.isEnded_turns p.context file p.tree hseven)

/-- A file gets its turns while all others are queued or have been dealt with. -/
theorem turns_replicate (hclear : p.HasNoClash) (hspares : p.SparesSources)
    (hposition : p.files[position]? = some file) (n : Nat) :
    ∀ {counts : Path → Nat} {b : Batch}, p.InStep h counts b → 1 ≤ b.workers →
      (∀ other ∈ p.files, other ≠ file → counts other = 0 ∨ 7 ≤ counts other) →
      p.InStep h (Function.update counts file (counts file + n))
        (b.turns h (List.replicate n position)) := by
  induction n with
  | zero =>
      intro counts b hstep hworkers hquiet
      rw [Nat.add_zero, Function.update_eq_self]
      exact hstep
  | succ n ih =>
      intro counts b hstep hworkers hquiet
      have hfree : (p.alone h file (counts file)).2 = .queued → b.activeCount < b.workers := by
        intro hqueued
        have hzero : b.activeCount = 0 := hstep.activeCount_eq_zero fun other hother => by
          by_cases hother' : other = file
          · exact .inl (hother' ▸ alone_eq_queued hqueued)
          · exact hquiet other hother hother'
        omega
      have hturned := hstep.turn hclear hspares hposition hfree
      have hrest := ih hturned (by rwa [Batch.workers_turn]) fun other hother hne => by
        rw [Function.update_of_ne hne]
        exact hquiet other hother hne
      rw [Function.update_self, Function.update_idem, Nat.add_assoc, Nat.add_comm 1] at hrest
      rwa [List.replicate_succ]

/-- The files up to some position get their turns, and no others do. -/
theorem turns_oneByOne (hclear : p.HasNoClash) (hspares : p.SparesSources) {workers : Nat}
    (hworkers : 1 ≤ workers) {n : Nat} (hn : n ≤ p.files.length) :
    ∃ counts, p.InStep h counts ((p.start workers).turns h (oneByOne n)) ∧
      (∀ file ∈ p.files.take n, 7 ≤ counts file) ∧ ∀ file ∈ p.files.drop n, counts file = 0 := by
  induction n with
  | zero => exact ⟨_, p.inStep_start h workers, by simp, fun _ _ => rfl⟩
  | succ n ih =>
      obtain ⟨counts, hstep, hdone, hleft⟩ := ih (Nat.le_of_succ_le hn)
      have hlt : n < p.files.length := hn
      have hposition : p.files[n]? = some p.files[n] := List.getElem?_eq_getElem hlt
      have hdrop : p.files.drop n = p.files[n] :: p.files.drop (n + 1) :=
        List.drop_eq_getElem_cons hlt
      have hnodup : (p.files.drop n).Nodup := hclear.distinct.of_map.sublist (List.drop_sublist _ _)
      rw [hdrop, List.nodup_cons] at hnodup
      have hsplit : oneByOne (n + 1) = oneByOne n ++ List.replicate 7 n := by
        simp [oneByOne, List.range_succ]
      have hturned := turns_replicate hclear hspares hposition 7 hstep
        (by rwa [Batch.workers_turns]) fun other hother hne => by
          rw [← List.take_append_drop n p.files, List.mem_append] at hother
          rcases hother with hother | hother
          · exact .inr (hdone other hother)
          · exact .inl (hleft other hother)
      refine ⟨_, by rwa [hsplit, Batch.turns_append], fun file hfile => ?_, fun file hfile => ?_⟩
      · by_cases hself : file = p.files[n]
        · rw [hself, Function.update_self]
          omega
        · rw [Function.update_of_ne hself]
          rw [List.take_succ_eq_append_getElem hlt, List.mem_append, List.mem_singleton] at hfile
          exact hdone file (hfile.resolve_right hself)
      · have hne : file ≠ p.files[n] := by
          rintro rfl
          exact hnodup.1 hfile
        rw [Function.update_of_ne hne]
        exact hleft file (hdrop ▸ List.mem_cons_of_mem _ hfile)

/-! ## The end -/

theorem isEnded_of_isSettled (hstep : p.InStep h counts b) (hsettled : b.isSettled = true)
    (hfile : file ∈ p.files) : (p.alone h file (counts file)).2.isEnded = true := by
  rw [Batch.isSettled, hstep.slots, List.all_map, List.all_eq_true] at hsettled
  exact hsettled file hfile

theorem isSettled_of_counts (hstep : p.InStep h counts b)
    (hcounts : ∀ file ∈ p.files, 7 ≤ counts file) : b.isSettled = true := by
  rw [Batch.isSettled, hstep.slots, List.all_map, List.all_eq_true]
  exact fun file hfile => h.isEnded_turns p.context file p.tree (hcounts file hfile)

/-- In the end every file is what it is after seven turns alone. -/
theorem alone_eq (hstep : p.InStep h counts b) (hsettled : b.isSettled = true)
    (hfile : file ∈ p.files) : p.alone h file (counts file) = p.alone h file 7 := by
  have hended := hstep.isEnded_of_isSettled hsettled hfile
  rcases Nat.le_total (counts file) 7 with hle | hle
  · exact (Helpers.turns_of_isEnded hended hle).symm
  · exact Helpers.turns_of_isEnded (h.isEnded_turns p.context file p.tree (Nat.le_refl 7)) hle

theorem slots_of_isSettled (hstep : p.InStep h counts b) (hsettled : b.isSettled = true) :
    b.slots = p.files.map fun file => (file, (p.alone h file 7).2) := by
  rw [hstep.slots]
  exact List.map_congr_left fun file hfile => by rw [hstep.alone_eq hsettled hfile]

/-- In the end the tree is as at first if no file is taken on, and under way otherwise. -/
theorem tree_of_isSettled (hstep : p.InStep h counts b) (hsettled : b.isSettled = true) :
    b.tree = p.tree ∧ (¬ ∃ file ∈ p.files, p.IsTakenOn file) ∨
      p.IsUnderway b.tree ∧ ∃ file ∈ p.files, p.IsTakenOn file := by
  rcases hstep.tree with ⟨htree, hzero⟩ | hunder
  · refine .inl ⟨htree, ?_⟩
    rintro ⟨file, hfile, htaken⟩
    have hended := hstep.isEnded_of_isSettled hsettled hfile
    rw [hzero file hfile htaken] at hended
    cases hended
  · exact .inr hunder

/-- Two batches in step that have been settled have come to the same end. -/
theorem endsAs {counts' : Path → Nat} {b' : Batch} (hstep : p.InStep h counts b)
    (hstep' : p.InStep h counts' b') (hsettled : b.isSettled = true)
    (hsettled' : b'.isSettled = true) : b.EndsAs b' := by
  have hslots : b.slots = b'.slots :=
    (hstep.slots_of_isSettled hsettled).trans (hstep'.slots_of_isSettled hsettled').symm
  have hresults : b.results = b'.results := by rw [Batch.results, Batch.results, hslots]
  rcases hstep.tree_of_isSettled hsettled with ⟨htree, hnone⟩ | ⟨hunder, hsome⟩ <;>
    rcases hstep'.tree_of_isSettled hsettled' with ⟨htree', hnone'⟩ | ⟨hunder', hsome'⟩
  · exact ⟨hslots, hresults, by rw [htree, htree'], fun l => by rw [htree, htree']⟩
  · exact absurd hsome' hnone
  · exact absurd hsome hnone'
  · refine ⟨hslots, hresults, hunder.workingDirectory.trans hunder'.workingDirectory.symm,
      fun l => ?_⟩
    by_cases hplace : ∃ file ∈ p.files, l = p.place file
    · obtain ⟨file, hfile, rfl⟩ := hplace
      rw [hstep.places file hfile, hstep'.places file hfile, hstep.alone_eq hsettled hfile,
        hstep'.alone_eq hsettled' hfile]
    · have hoff : ∀ file ∈ p.files, l ≠ p.place file := fun file hfile hl =>
        hplace ⟨file, hfile, hl⟩
      rw [hunder.elsewhere l hoff, hunder'.elsewhere l hoff]

/-- Every file keeps to the job that is planned for it. -/
theorem serves (hstep : p.InStep h counts b) (hclear : p.HasNoClash) (hspares : p.SparesSources)
    {slot : Slot} (hslot : (file, slot) ∈ b.slots) : slot.Serves (p.job file) := by
  rw [hstep.slots] at hslot
  obtain ⟨file', hfile, hentry⟩ := List.mem_map.1 hslot
  obtain ⟨rfl, rfl⟩ := Prod.mk.inj hentry
  by_cases htaken : p.IsTakenOn file'
  · exact (alone_of_isTakenOn h hclear hspares hfile htaken _).1
  · obtain ⟨ending, hfails, hlone, -⟩ := alone_of_refused h hclear hspares hfile htaken
    rcases counts file' with _ | n
    · trivial
    · rw [hlone n]
      exact Slot.serves_of_fails hfails

end InStep

end Step

/-- **The order of jobs makes no difference.**  A batch has different planned outputs that are not
there yet, directly in the directory for them, and spares its sources.  Then every order of its
jobs, under any number of workers, comes to the end that it comes to one file after the other; and
at all times every file keeps to the job that is planned for it, with its planned output. -/
theorem endsAs_oneByOne (p : BatchPlan) (h : Helpers) (hclear : p.HasNoClash)
    (hspares : p.SparesSources) (workers : Nat) {one : Nat} (hone : 1 ≤ one)
    (schedule : List Nat) :
    let lone := (p.start one).turns h (oneByOne p.files.length)
    let run := (p.start workers).turns h schedule
    lone.isSettled = true ∧ (run.isSettled = true → run.EndsAs lone) ∧
      ∀ file slot, (file, slot) ∈ run.slots → slot.Serves (p.job file) := by
  intro lone run
  obtain ⟨counts, hlone, hcounts, -⟩ :=
    InStep.turns_oneByOne (h := h) hclear hspares hone (Nat.le_refl p.files.length)
  rw [List.take_length] at hcounts
  have hsettled : lone.isSettled = true := hlone.isSettled_of_counts hcounts
  obtain ⟨counts', hrun⟩ :=
    InStep.exists_turns schedule hclear hspares (p.inStep_start h workers)
  exact ⟨hsettled, fun hended => hrun.endsAs hlone hended hsettled, fun file slot hslot =>
    hrun.serves hclear hspares hslot⟩

/-- A batch of files of a show that says nothing but its name. -/
def named (files : List Path) (entries : List (Location × Entry)) : BatchPlan where
  context := .named "Show"
  files := files
  tree := ⟨[], entries⟩
  plan := fun file => .ofReading file (.named "Show") .standard none .first none none none
  place := fun file => ["Output", "Show" ++ file.suffix]

/-- Helpers with a copier that gives up on `a.wav` half way. -/
def halfCopying : Helpers where
  probe := fun _ => .ok ⟨60, none, 1, false⟩
  transcode := fun _ _ => (none, .ok ())
  copier := some fun file =>
    if file.path.name = "a.wav" then (some ⟨#[0]⟩, .error (.fault (.refused "disk full")))
    else (file.content.toOption, .ok ())

/-- Two jobs take turns; one is copied and the other fails, as one after the other. -/
theorem named_endsAs_oneByOne :
    let p := named [⟨0, ["a.wav"]⟩, ⟨0, ["b.flac"]⟩]
      [(["a.wav"], .file ⟨#[1]⟩), (["b.flac"], .file ⟨#[2]⟩)]
    let run := (p.start 2).turns halfCopying ((List.replicate 7 [1, 0]).flatten)
    run.results.map (fun r => (r.2.success, r.2.output)) =
        [(false, none), (true, some ⟨0, ["Output", "Show.flac"]⟩)] ∧
      run.EndsAs ((p.start 1).turns halfCopying (oneByOne 2)) := by
  intro p run
  have hclear : p.HasNoClash :=
    { planned := fun _ _ => rfl
      directory := by decide +kernel
      below := by decide +kernel
      place? := by decide +kernel
      free := by decide +kernel
      distinct := by decide +kernel }
  have hspares : p.SparesSources := hclear.sparesSources (by decide +kernel)
  have hrun : run.isSettled = true ∧ run.results.map (fun r => (r.2.success, r.2.output)) =
      [(false, none), (true, some ⟨0, ["Output", "Show.flac"]⟩)] := by
    decide +kernel
  have hends := endsAs_oneByOne p halfCopying hclear hspares 2 (Nat.le_refl 1)
    ((List.replicate 7 [1, 0]).flatten)
  exact ⟨hrun.2, hends.2.1 hrun.1⟩

/-! ## A source that is the output of another file -/

/-- A show whose files are transcoded and keep their names, behind a prefix. -/
def prefixingShow : ShowContext :=
  { ShowContext.named "Show" with
    outputDirectory := some ⟨0, ["out"]⟩
    profile := { ShowProfile.named "Show" with
      audio := { AudioSettings.none with format := "mp3" }
      naming := ⟨some "c_\x7boriginalFilename\x7d"⟩ } }

/-- The second file is the planned output of the first. -/
def prefixing : BatchPlan where
  context := prefixingShow
  files := [⟨0, ["in", "a.wav"]⟩, ⟨0, ["out", "c_a.mp3"]⟩]
  tree := ⟨[], [(["in"], .directory), (["in", "a.wav"], .file ⟨#[1]⟩)]⟩
  plan := fun file => .ofReading file prefixingShow.profile prefixingShow.settings
    prefixingShow.outputDirectory prefixingShow.today none none none
  place := fun file => ["out", "c_" ++ file.stem ++ ".mp3"]

/-- Helpers with a transcoder that fails. -/
def failing : Helpers where
  probe := fun _ => .ok ⟨60, none, 1, false⟩
  transcode := fun _ _ => (none, .error (.fault (.failed 1 "boom")))
  copier := none

/-- The second file is dealt with after the first, and is missing before. -/
theorem prefixing_depends_on_order :
    let run := (prefixing.start 2).turns failing (1 :: List.replicate 7 0)
    prefixing.HasNoClash ∧ run.isSettled = true ∧
      ¬ run.EndsAs ((prefixing.start 1).turns failing (oneByOne 2)) := by
  intro run
  have houtput : ∀ file ∈ prefixing.files,
      (prefixing.plan file).output = ⟨0, ["out", "c_" ++ file.stem ++ ".mp3"]⟩ := by
    decide +kernel
  have hclear : prefixing.HasNoClash :=
    { planned := fun _ _ => rfl
      directory := by decide +kernel
      below := fun file hfile => by rw [houtput file hfile]; rfl
      place? := fun file hfile => by
        rw [houtput file hfile]
        revert file
        decide +kernel
      free := by decide +kernel
      distinct := by decide +kernel }
  have hrun : run.isSettled = true ∧ run.results.map (fun r => r.2.success) = [true, false] := by
    decide +kernel
  have hlone : ((prefixing.start 1).turns failing (oneByOne 2)).results.map
      (fun r => r.2.success) = [true, true] := by
    decide +kernel
  refine ⟨hclear, hrun.1, fun hends => ?_⟩
  rw [← hends.results, hrun.2] at hlone
  cases hlone

end BatchPlan

end BroadcastIntake
