import BroadcastIntake.Proofs.Batch.Ownership
import BroadcastIntake.Proofs.Job.Remaining
import Mathlib

/-!
# Every file is dealt with once

`Reaches` says what can become of a batch in which nobody is cancelled: its jobs make moves that are
due, in any order that the workers allow, and between them anything may happen to the file tree.
The run of a batch is a case of it (`reaches_run`).

A due move takes one file on and leaves the others as they are, so there is an end to them; and as
long as a file has not been dealt with, some move is due (`isEnded_of_idle`).  At the end every
file has been reported once, with a result of one class, and the statistics count the classes.
-/

namespace BroadcastIntake.Batch

/-- Whether the move takes the file at its position on, and no worker is missing for it. -/
def isDue (b : Batch) (m : BatchMove) : Bool :=
  match b.slots[m.position]? with
  | some (_, slot) => slot.isDue m.move && !b.isHeldUp m.move
  | none => false

/-- No move takes any file on. -/
def IsIdle (b : Batch) : Prop :=
  ∀ m, b.isDue m = false

/-- How many moves the files have before them at most. -/
def stepsLeft (b : Batch) : Nat :=
  (b.slots.map fun entry => entry.2.stepsLeft).sum

/-- The file at a position has been dealt with. -/
def HasEnded (b : Batch) (position : Nat) : Prop :=
  ∃ source ending, b.slots[position]? = some (source, .ended ending)

namespace Progress

/-- A batch before any work. -/
def begin (context : ShowContext) (workers : Nat) (files : List Path) (tree : FileTree) :
    Progress :=
  ⟨ofFiles context workers files tree, [], []⟩

/-- The batch can come from `start` to where it is with so many moves of its jobs. -/
inductive Reaches (start : Progress) : Nat → Progress → Prop
  | refl : Reaches start 0 start
  /-- Tools are called and the tree is changed, by whomever and wherever. -/
  | change {n : Nat} {p : Progress} (hp : Reaches start n p) (tree : FileTree)
      (calls : List ToolCall) :
      Reaches start n { p with batch := { p.batch with tree }, calls }
  /-- A job makes a move that is due, whatever the answer is that it gets. -/
  | move {n : Nat} {p : Progress} (hp : Reaches start n p) {m : BatchMove}
      (hdue : p.batch.isDue m = true) :
      Reaches start (n + 1) (noteEnd m.position { p with batch := (p.batch.move m).value })

/-- The files of the batch are the given ones and on course, and exactly those that have been dealt
with are noted, each once. -/
structure IsOnCourse (workers : Nat) (files : List Path) (p : Progress) : Prop where
  workers : p.batch.workers = workers
  sources : p.batch.slots.map Prod.fst = files
  slots : ∀ (i : Nat) (source : Path) (slot : Slot),
    p.batch.slots[i]? = some (source, slot) → slot.IsOnCourse
  nodup : p.finished.Nodup
  finished : ∀ i, i ∈ p.finished ↔ p.batch.HasEnded i

/-- All files have been dealt with. -/
structure Settles (files : List Path) (p : Progress) : Prop where
  /-- Every position is reported once, also when a file is there twice. -/
  once : p.finished.Perm (List.range files.length)
  /-- Its result is that of the file there, and of one class. -/
  result : ∀ i (hi : i < files.length),
    ∃ r, p.batch.resultAt i = some (files[i], r) ∧ r.Classed
  /-- A crash is the failed result of its own file. -/
  crash : ∀ (i : Nat) (source : Path) (crash : Crash),
    p.batch.slots[i]? = some (source, .ended (.crashed crash)) →
      p.batch.resultAt i = some (source, .refused s!"Unexpected error: {crash.message}")
  /-- Up to their order, the reported results are those of the files in the order of the list. -/
  reported : p.results.Perm p.batch.results
  sources : p.batch.results.map Prod.fst = files
  length : p.results.length = files.length
  /-- The statistics count the results by their classes. -/
  counts : ((BatchStats.ofTotal files.length).addAll (p.results.map Prod.snd)).Counts
    (p.results.map Prod.snd)
  /-- It makes no difference to them in which order the files have ended. -/
  order : (BatchStats.ofTotal files.length).addAll (p.results.map Prod.snd) =
    (BatchStats.ofTotal files.length).addAll (p.batch.results.map Prod.snd)

/-! ## Noting the end -/

section Noting

variable {p : Progress} {position : Nat}

@[simp] theorem batch_noteEnd (position : Nat) (p : Progress) :
    (noteEnd position p).batch = p.batch := by
  unfold noteEnd
  split
  · split <;> rfl
  · rfl

theorem noteEnd_of_hasEnded (hended : p.batch.HasEnded position)
    (hnew : position ∉ p.finished) :
    noteEnd position p = { p with finished := p.finished ++ [position] } := by
  obtain ⟨source, ending, hslot⟩ := hended
  simp [noteEnd, hslot, hnew]

theorem noteEnd_of_not_hasEnded (hended : ¬ p.batch.HasEnded position) :
    noteEnd position p = p := by
  unfold noteEnd
  split
  · rename_i source ending hslot
    exact absurd ⟨source, ending, hslot⟩ hended
  · rfl

/-- Noting the end of a file keeps the notes on the others, and makes that of the file right. -/
theorem finished_noteEnd (hnodup : p.finished.Nodup) (hnew : position ∉ p.finished)
    (hothers : ∀ i, i ≠ position → (i ∈ p.finished ↔ p.batch.HasEnded i)) :
    (noteEnd position p).finished.Nodup ∧
      ∀ i, i ∈ (noteEnd position p).finished ↔ p.batch.HasEnded i := by
  by_cases hended : p.batch.HasEnded position
  · rw [noteEnd_of_hasEnded hended hnew]
    refine ⟨hnodup.append (List.nodup_singleton _) (List.disjoint_singleton.2 hnew), fun i => ?_⟩
    rw [List.mem_append, List.mem_singleton]
    by_cases hi : i = position
    · subst hi
      exact iff_of_true (.inr rfl) hended
    · simp [hi, hothers i hi]
  · rw [noteEnd_of_not_hasEnded hended]
    refine ⟨hnodup, fun i => ?_⟩
    by_cases hi : i = position
    · subst hi
      exact iff_of_false hnew hended
    · exact hothers i hi

end Noting

end Progress

/-! ## One move -/

section Moving

variable {b : Batch} {m : BatchMove}

theorem exists_of_isDue (hdue : b.isDue m = true) :
    ∃ source slot, b.slots[m.position]? = some (source, slot) ∧ slot.isDue m.move = true ∧
      b.isHeldUp m.move = false := by
  unfold isDue at hdue
  split at hdue
  · rename_i source slot hslot
    rw [Bool.and_eq_true, Bool.not_eq_true'] at hdue
    exact ⟨source, slot, hslot, hdue⟩
  · cases hdue

theorem isDue_of_slot {source : Path} {slot : Slot}
    (hslot : b.slots[m.position]? = some (source, slot)) (hdue : slot.isDue m.move = true)
    (hheld : b.isHeldUp m.move = false) : b.isDue m = true := by
  simp [isDue, hslot, hdue, hheld]

/-- A file for which a move is due has not been dealt with. -/
theorem not_hasEnded_of_isDue (hdue : b.isDue m = true) : ¬ b.HasEnded m.position := by
  rintro ⟨source, ending, hended⟩
  obtain ⟨_, _, hslot, hdue, -⟩ := exists_of_isDue hdue
  rw [hended] at hslot
  cases hslot
  cases hmove : m.move <;> rw [hmove] at hdue <;> cases hdue

theorem sum_set_lt {l : List Nat} {i x y : Nat} (hx : l[i]? = some x) (hlt : y < x) :
    (l.set i y).sum < l.sum := by
  induction l generalizing i with
  | nil => cases hx
  | cons a l ih =>
      cases i with
      | zero =>
          obtain rfl := Option.some.inj hx
          simpa using hlt
      | succ i => simpa using ih hx

/-- A due move leaves less to do. -/
theorem stepsLeft_move (hcourse : ∀ (i : Nat) (source : Path) (slot : Slot),
      b.slots[i]? = some (source, slot) → slot.IsOnCourse) (hdue : b.isDue m = true) :
    (b.move m).value.stepsLeft < b.stepsLeft := by
  obtain ⟨source, slot, hslot, hdue, hheld⟩ := exists_of_isDue hdue
  have hless :=
    (Slot.move_of_isDue b.context source b.tree (hcourse _ _ _ hslot) hdue).2
  rw [move_eq hslot hheld]
  simp only [stepsLeft, List.map_set]
  exact sum_set_lt (by simp [hslot]) hless

/-- A move leaves the files of a batch as they are. -/
theorem map_fst_slots_move (b : Batch) (m : BatchMove) :
    (b.move m).value.slots.map Prod.fst = b.slots.map Prod.fst := by
  rcases b.move_cases m with ⟨hsame, -⟩ | ⟨source, slot, hslot, hheld⟩
  · rw [hsame]
  · refine List.ext_getElem? fun i => ?_
    rw [List.getElem?_map, List.getElem?_map, getElem?_move hslot hheld]
    split
    · rename_i hi
      rw [hi, hslot]
      rfl
    · rfl

/-- The other files are dealt with if they were before. -/
theorem hasEnded_move_iff (hdue : b.isDue m = true) {i : Nat} (hi : i ≠ m.position) :
    (b.move m).value.HasEnded i ↔ b.HasEnded i := by
  obtain ⟨source, slot, hslot, -, hheld⟩ := exists_of_isDue hdue
  simp only [HasEnded, getElem?_move hslot hheld, if_neg hi]

theorem slots_move (hcourse : ∀ (i : Nat) (source : Path) (slot : Slot),
      b.slots[i]? = some (source, slot) → slot.IsOnCourse) (hdue : b.isDue m = true) (i : Nat)
    (source : Path) (slot : Slot) (hi : (b.move m).value.slots[i]? = some (source, slot)) :
    slot.IsOnCourse := by
  obtain ⟨source', slot', hslot, hdue, hheld⟩ := exists_of_isDue hdue
  rw [getElem?_move hslot hheld] at hi
  split at hi
  · obtain ⟨-, rfl⟩ := Prod.mk.inj (Option.some.inj hi)
    exact (Slot.move_of_isDue b.context source' b.tree (hcourse _ _ _ hslot) hdue).1
  · exact hcourse i _ _ hi

theorem Progress.IsOnCourse.move {workers : Nat} {files : List Path} {p : Progress}
    (hp : p.IsOnCourse workers files) (hdue : p.batch.isDue m = true) :
    (noteEnd m.position { p with batch := (p.batch.move m).value }).IsOnCourse workers files := by
  have hbefore := not_hasEnded_of_isDue hdue
  have hnew : m.position ∉ p.finished := fun hmem => hbefore ((hp.finished _).1 hmem)
  obtain ⟨hnodup, hfinished⟩ := Progress.finished_noteEnd
    (p := { p with batch := (p.batch.move m).value }) hp.nodup hnew fun i hi =>
      (hp.finished i).trans (hasEnded_move_iff hdue hi).symm
  exact
    { workers := by rw [batch_noteEnd, workers_move, hp.workers]
      sources := by rw [batch_noteEnd, map_fst_slots_move _ _, hp.sources]
      slots := by
        rw [batch_noteEnd]
        exact slots_move hp.slots hdue
      nodup := hnodup
      finished := by simpa only [batch_noteEnd] using hfinished }

end Moving

/-! ## Runs -/

namespace Progress

section Running

variable {context : ShowContext} {workers : Nat} {files : List Path} {tree : FileTree}
  {p : Progress} {n : Nat}

theorem slot_begin {i : Nat} {source : Path} {slot : Slot}
    (hi : (begin context workers files tree).batch.slots[i]? = some (source, slot)) :
    slot = .queued := by
  simp only [begin, ofFiles, List.getElem?_map, Option.map_eq_some_iff, Prod.mk.injEq] at hi
  obtain ⟨file, -, -, hslot⟩ := hi
  exact hslot.symm

theorem isOnCourse_begin (context : ShowContext) (workers : Nat) (files : List Path)
    (tree : FileTree) : (begin context workers files tree).IsOnCourse workers files where
  workers := rfl
  sources := by simp [begin, ofFiles, Function.comp_def]
  slots i source slot hi := by
    rw [slot_begin hi]
    trivial
  nodup := List.nodup_nil
  finished i := by
    refine iff_of_false List.not_mem_nil ?_
    rintro ⟨source, ending, hi⟩
    cases slot_begin hi

theorem stepsLeft_begin (context : ShowContext) (workers : Nat) (files : List Path)
    (tree : FileTree) : (begin context workers files tree).batch.stepsLeft = 7 * files.length := by
  simp [begin, ofFiles, stepsLeft, Function.comp_def, Slot.stepsLeft, Nat.mul_comm]

/-- The run lemma: a batch stays on course, and every move has lowered what is left to do. -/
theorem Reaches.isOnCourse (hrun : Reaches (begin context workers files tree) n p) :
    p.IsOnCourse workers files ∧ n + p.batch.stepsLeft ≤ 7 * files.length := by
  induction hrun with
  | refl =>
      refine ⟨isOnCourse_begin context workers files tree, ?_⟩
      exact Nat.le_of_eq (by rw [stepsLeft_begin, Nat.zero_add])
  | change _ tree calls ih => exact ⟨{ ih.1 with }, ih.2⟩
  | move _ hdue ih =>
      obtain ⟨hcourse, hleft⟩ := ih
      have hless := stepsLeft_move hcourse.slots hdue
      refine ⟨hcourse.move hdue, ?_⟩
      rw [batch_noteEnd]
      exact Nat.le_trans (by dsimp only; omega) hleft

/-- The batch after a sequence of moves, with the ends noted. -/
def follow (p : Progress) : List BatchMove → Progress
  | [] => p
  | m :: rest => follow (noteEnd m.position { p with batch := (p.batch.move m).value }) rest

/-- Whether every move of a sequence is due when it is made. -/
def areDue (p : Progress) : List BatchMove → Bool
  | [] => true
  | m :: rest =>
    p.batch.isDue m && areDue (noteEnd m.position { p with batch := (p.batch.move m).value }) rest

theorem Reaches.follow {start : Progress} (ms : List BatchMove) :
    ∀ {n : Nat} {p : Progress}, Reaches start n p → p.areDue ms = true →
      Reaches start (n + ms.length) (p.follow ms) := by
  induction ms with
  | nil => exact fun hrun _ => hrun
  | cons m rest ih =>
      intro n p hrun hdue
      rw [areDue, Bool.and_eq_true] at hdue
      rw [List.length_cons, Nat.add_comm rest.length, ← Nat.add_assoc]
      exact ih (hrun.move hdue.1) hdue.2

/-! ## The end -/

/-- If there is a worker at all, a batch is idle only when every file has been dealt with: a job
under way could go on, and without one a worker would be free. -/
theorem IsOnCourse.isEnded_of_idle (hcourse : p.IsOnCourse workers files)
    (hworkers : 1 ≤ workers) (hidle : p.batch.IsIdle) (i : Nat) (source : Path) (slot : Slot)
    (hi : p.batch.slots[i]? = some (source, slot)) : ∃ ending, slot = .ended ending := by
  have hactive : ∀ (j : Nat) (source : Path) (slot : Slot),
      p.batch.slots[j]? = some (source, slot) → slot.isActive = false := by
    intro j source slot hj
    refine Bool.eq_false_iff.2 fun hactive => ?_
    obtain ⟨m, hstart, hdue⟩ := Slot.exists_isDue (hcourse.slots j source slot hj) hactive
    have hheld : p.batch.isHeldUp m = false := by
      cases m with
      | start => exact absurd rfl hstart
      | _ => rfl
    have hmoves := isDue_of_slot (m := ⟨j, m⟩) hj hdue hheld
    rw [hidle] at hmoves
    cases hmoves
  cases slot with
  | queued =>
      have hfree : p.batch.activeCount = 0 := by
        refine List.countP_eq_zero.2 fun entry hentry => ?_
        obtain ⟨j, hj⟩ := List.mem_iff_getElem?.1 hentry
        simp [hactive j entry.1 entry.2 hj]
      have hheld : p.batch.isHeldUp .start = false := by
        simp only [isHeldUp, hfree, hcourse.workers]
        exact decide_eq_false (by omega)
      have hmoves := isDue_of_slot (m := ⟨i, .start⟩) hi rfl hheld
      rw [hidle] at hmoves
      cases hmoves
  | waiting w answer => exact absurd (hactive i _ _ hi) (by simp [Slot.isActive])
  | ended ending => exact ⟨ending, rfl⟩

/-- A file that has been dealt with has a result of one class. -/
theorem classed_of_isOnCourse {ending : JobEnd} (hcourse : (Slot.ended ending).IsOnCourse) :
    ∃ r, resultOf ending = some r ∧ r.Classed := by
  cases ending with
  | finished result => exact ⟨result, rfl, hcourse⟩
  | cancelled => exact absurd hcourse id
  | crashed crash => exact ⟨_, rfl, JobResult.classed_failure _ _ _⟩

end Running

end Progress

theorem isIdle_of_isEnded {b : Batch} (hended : b.slots.all fun entry => entry.2.isEnded) :
    b.IsIdle := by
  refine fun m => Bool.eq_false_iff.2 fun hdue => not_hasEnded_of_isDue hdue ?_
  obtain ⟨source, slot, hslot, -⟩ := exists_of_isDue hdue
  have hend := List.all_eq_true.1 hended _ (List.mem_of_getElem? hslot)
  cases slot with
  | ended ending => exact ⟨source, ending, hslot⟩
  | _ => cases hend

/-! ## Results -/

section Results

variable {b : Batch}

/-- The results of a batch are those at its positions, one after the other. -/
theorem filterMap_resultAt (b : Batch) :
    (List.range b.slots.length).filterMap b.resultAt = b.results := by
  have hslots : (List.range b.slots.length).map (fun i => b.slots[i]?) = b.slots.map some := by
    refine List.ext_getElem? fun i => ?_
    rcases Nat.lt_or_ge i b.slots.length with hi | hi <;> simp [hi]
  -- both look at the slots by one function
  obtain ⟨resultIn, hresults, hresult⟩ : ∃ resultIn, b.results = b.slots.filterMap resultIn ∧
      b.resultAt = fun i => b.slots[i]?.bind resultIn := by
    refine ⟨_, rfl, funext fun i => ?_⟩
    unfold resultAt
    rcases b.slots[i]? with _ | ⟨source, _ | _ | ending⟩ <;> rfl
  calc (List.range b.slots.length).filterMap b.resultAt
      = ((List.range b.slots.length).map fun i => b.slots[i]?).filterMap (·.bind resultIn) := by
        rw [hresult, List.filterMap_map]
        rfl
    _ = b.results := by
        rw [hslots, List.filterMap_map, hresults]
        rfl

/-- When every file has a result, the results are those of the files one after the other. -/
theorem map_fst_results (hresults : ∀ entry ∈ b.slots, ∃ ending r,
      entry.2 = .ended ending ∧ resultOf ending = some r) :
    b.results.map Prod.fst = b.slots.map Prod.fst := by
  obtain ⟨context, workers, slots, tree⟩ := b
  unfold results
  dsimp only at hresults ⊢
  induction slots with
  | nil => rfl
  | cons entry rest ih =>
      obtain ⟨source, slot⟩ := entry
      obtain ⟨ending, r, rfl, hr⟩ := hresults _ List.mem_cons_self
      rw [List.filterMap_cons_some (b := (source, r)) (by simp [hr])]
      exact congrArg (source :: ·) (ih fun entry hentry =>
        hresults entry (List.mem_cons_of_mem _ hentry))

end Results

/-- When no file is left to be dealt with, there is a result of one class for each. -/
theorem Progress.IsOnCourse.exists_result {workers : Nat} {files : List Path} {p : Progress}
    (hcourse : p.IsOnCourse workers files)
    (hended : ∀ (i : Nat) (source : Path) (slot : Slot),
      p.batch.slots[i]? = some (source, slot) → ∃ ending, slot = .ended ending)
    (i : Nat) (hi : i < files.length) : ∃ ending r,
      p.batch.slots[i]? = some (files[i], .ended ending) ∧ resultOf ending = some r ∧
        r.Classed := by
  have hsource : (p.batch.slots.map Prod.fst)[i]? = some files[i] := by
    rw [hcourse.sources, List.getElem?_eq_getElem hi]
  rw [List.getElem?_map, Option.map_eq_some_iff] at hsource
  obtain ⟨⟨source, slot⟩, hslot, rfl⟩ := hsource
  obtain ⟨ending, rfl⟩ := hended i _ slot hslot
  obtain ⟨r, hr⟩ := Progress.classed_of_isOnCourse (hcourse.slots i _ _ hslot)
  exact ⟨ending, r, hslot, hr⟩

section Settling

variable {workers : Nat} {files : List Path} {p : Progress}

/-- When every file has been dealt with, each has been noted once. -/
theorem Progress.IsOnCourse.perm_finished (hcourse : p.IsOnCourse workers files)
    (hended : ∀ (i : Nat) (source : Path) (slot : Slot),
      p.batch.slots[i]? = some (source, slot) → ∃ ending, slot = .ended ending) :
    p.finished.Perm (List.range files.length) := by
  refine (List.perm_ext_iff_of_nodup hcourse.nodup List.nodup_range).2 fun i => ?_
  rw [hcourse.finished, List.mem_range]
  constructor
  · rintro ⟨source, ending, hslot⟩
    rw [← hcourse.sources, List.length_map]
    exact (List.getElem?_eq_some_iff.1 hslot).1
  · intro hi
    obtain ⟨ending, -, hslot, -⟩ := hcourse.exists_result hended i hi
    exact ⟨_, ending, hslot⟩

/-- When every file has been dealt with, the results are those of the files. -/
theorem Progress.IsOnCourse.map_fst_results (hcourse : p.IsOnCourse workers files)
    (hended : ∀ (i : Nat) (source : Path) (slot : Slot),
      p.batch.slots[i]? = some (source, slot) → ∃ ending, slot = .ended ending) :
    p.batch.results.map Prod.fst = files := by
  rw [← hcourse.sources]
  refine Batch.map_fst_results fun entry hentry => ?_
  obtain ⟨i, hi⟩ := List.mem_iff_getElem?.1 hentry
  obtain ⟨ending, hending⟩ := hended i _ _ hi
  have hslot : (Slot.ended ending).IsOnCourse := hending ▸ hcourse.slots i _ _ hi
  obtain ⟨r, hr, -⟩ := Progress.classed_of_isOnCourse hslot
  exact ⟨ending, r, hending, hr⟩

/-- A batch that is on course and idle has settled. -/
theorem Progress.IsOnCourse.settles (hcourse : p.IsOnCourse workers files) (hworkers : 1 ≤ workers)
    (hidle : p.batch.IsIdle) : p.Settles files := by
  have hended := hcourse.isEnded_of_idle hworkers hidle
  have hresult : ∀ i (hi : i < files.length),
      ∃ r, p.batch.resultAt i = some (files[i], r) ∧ r.Classed := by
    intro i hi
    obtain ⟨ending, r, hslot, hr, hclassed⟩ := hcourse.exists_result hended i hi
    exact ⟨r, by simp [resultAt, hslot, hr], hclassed⟩
  have honce := hcourse.perm_finished hended
  have hsources := hcourse.map_fst_results hended
  have hlength : p.batch.slots.length = files.length := by
    rw [← hcourse.sources, List.length_map]
  have hreported : p.results.Perm p.batch.results := by
    rw [← filterMap_resultAt, hlength]
    exact honce.filterMap _
  have hcount : p.results.length = files.length := by
    rw [hreported.length_eq, ← List.length_map Prod.fst, hsources]
  have hclassed : ∀ r ∈ p.results.map Prod.snd, r.Classed := by
    intro r hr
    obtain ⟨⟨source, r⟩, hmem, rfl⟩ := List.mem_map.1 hr
    obtain ⟨i, hi, hfound⟩ := List.mem_filterMap.1 hmem
    obtain ⟨r', hr', hclassed⟩ := hresult i (List.mem_range.1 (honce.mem_iff.1 hi))
    rw [hfound] at hr'
    rwa [(Prod.mk.inj (Option.some.inj hr')).2]
  refine ⟨honce, hresult, ?_, hreported, hsources, hcount, ?_, ?_⟩
  · intro i source crash hslot
    simp [resultAt, hslot, resultOf]
  · rw [← hcount, ← List.length_map Prod.snd]
    exact BatchStats.counts_addAll hclassed
  · exact BatchStats.addAll_perm (hreported.map Prod.snd) _

end Settling

/-! ## The run of a batch -/

/-- What works for a job that has not been cancelled gives it an answer that it expects. -/
theorem expects_of_reply {s : Surroundings} {w : WaitingJob} {tree : FileTree} {event : JobEvent}
    (hleft : 0 < w.stage.answersLeft) (hevent : (s.reply w tree).value.event = some event) :
    w.stage.expects event = true := by
  rcases hstage : w.stage with _ | ⟨probe, chain⟩ | failure | _
  case copying =>
    obtain ⟨outcome, rfl⟩ := (s.isOfCopier_reply w tree (by rw [hstage]; rfl)).event event hevent
    rfl
  case abandoning =>
    rw [hstage] at hleft
    cases hleft
  all_goals
    rw [Surroundings.reply, hstage] at hevent
    obtain ⟨outcome, -, rfl⟩ := Option.map_eq_some_iff.1 hevent
    rfl

namespace Progress

section Advancing

variable {context : ShowContext} {workers : Nat} {files : List Path} {tree : FileTree}
  {p : Progress} {n : Nat}

theorem reaches_start {position : Nat} {source : Path}
    (hrun : Reaches (begin context workers files tree) n p)
    (hslot : p.batch.slots[position]? = some (source, .queued)) :
    ∃ k, Reaches (begin context workers files tree) k
      (noteEnd position { p with batch := (p.batch.move ⟨position, .start⟩).value }) := by
  rcases hheld : p.batch.isHeldUp .start with _ | _
  · exact ⟨n + 1, hrun.move (m := ⟨position, .start⟩) (isDue_of_slot hslot rfl hheld)⟩
  · have hsame : (p.batch.move ⟨position, .start⟩).value = p.batch := by
      simp [Batch.move, hslot, hheld]
    refine ⟨n, ?_⟩
    rw [hsame, noteEnd_of_not_hasEnded]
    · exact hrun
    · rintro ⟨_, _, hended⟩
      rw [hslot] at hended
      cases hended

/-- An expected answer and the step that it leads to are two moves that are due. -/
theorem reaches_answer {position : Nat} {source : Path} {w : WaitingJob} {event : JobEvent}
    (hrun : Reaches (begin context workers files tree) n p)
    (hslot : p.batch.slots[position]? = some (source, .waiting w none))
    (hexpects : w.stage.expects event = true) :
    Reaches (begin context workers files tree) (n + 2)
      (noteEnd position { p with
        batch :=
          ((p.batch.move ⟨position, .answer event⟩).value.move ⟨position, .goOn⟩).value }) := by
  let answered : Progress :=
    { p with batch := (p.batch.move ⟨position, .answer event⟩).value }
  have hanswered : answered.batch.slots[position]? = some (source, .waiting w (some event)) := by
    simp only [answered]
    rw [getElem?_move (m := ⟨position, .answer event⟩) hslot rfl, if_pos rfl]
    rfl
  have hfirst : Reaches (begin context workers files tree) (n + 1) answered := by
    have hmoved := hrun.move (m := ⟨position, .answer event⟩) (isDue_of_slot hslot hexpects rfl)
    rwa [noteEnd_of_not_hasEnded (p := answered)] at hmoved
    rintro ⟨_, _, hended⟩
    rw [hanswered] at hended
    cases hended
  exact hfirst.move (m := ⟨position, .goOn⟩) (isDue_of_slot hanswered rfl rfl)

theorem Reaches.advance (hrun : Reaches (begin context workers files tree) n p)
    (s : Surroundings) (position : Nat) :
    ∃ k, Reaches (begin context workers files tree) k (Batch.advance s position p).value := by
  unfold Batch.advance
  dsimp only
  split
  · rename_i hslot
    exact reaches_start hrun hslot
  · rename_i source w hslot
    have hwaits := (hrun.isOnCourse.1).slots _ _ _ hslot
    have hchanged := hrun.change (s.reply w p.batch.tree).value.tree
      (p.calls ++ (s.reply w p.batch.tree).value.calls)
    simp only [Logged.value_bind]
    split
    · exact ⟨n, hchanged⟩
    · rename_i event hevent
      exact ⟨n + 2, reaches_answer hchanged hslot (expects_of_reply hwaits hevent)⟩
  · exact ⟨n, hrun⟩

theorem Reaches.advanceToCopy (s : Surroundings) (position : Nat) (limit : Nat) :
    ∀ {n : Nat} {p : Progress}, Reaches (begin context workers files tree) n p →
      ∃ k, Reaches (begin context workers files tree) k
        (Batch.advanceToCopy s position limit p).value := by
  induction limit with
  | zero => exact fun hrun => hrun.advance s position
  | succ limit ih =>
      intro n p hrun
      obtain ⟨k, hnext⟩ := hrun.advance s position
      simp only [Batch.advanceToCopy, Logged.value_bind]
      split
      · exact ih hnext
      · exact ⟨k, hnext⟩

theorem Reaches.advanceAll (s : Surroundings) (positions : List Nat) :
    ∀ {n : Nat} {p : Progress}, Reaches (begin context workers files tree) n p →
      ∃ k, Reaches (begin context workers files tree) k (Batch.advanceAll s positions p).value := by
  induction positions with
  | nil => exact fun hrun => ⟨_, hrun⟩
  | cons position rest ih =>
      intro n p hrun
      obtain ⟨k, hnext⟩ := Reaches.advanceToCopy s position JobRun.stepLimit hrun
      exact ih hnext

theorem Reaches.runRounds (s : Surroundings) (rounds : Nat) :
    ∀ {n : Nat} {p : Progress}, Reaches (begin context workers files tree) n p →
      ∃ k, Reaches (begin context workers files tree) k (Batch.runRounds s rounds p).value := by
  induction rounds with
  | zero => exact fun hrun => ⟨_, hrun⟩
  | succ rounds ih =>
      intro n p hrun
      simp only [Batch.runRounds]
      split
      · exact ⟨n, hrun⟩
      · obtain ⟨k, hnext⟩ := Reaches.advanceAll s (List.range p.batch.slots.length) hrun
        exact ih hnext

/-- The run of a batch makes moves that are due, in one of the orders. -/
theorem reaches_run (context : ShowContext) (workers : Nat) (files : List Path) (tree : FileTree)
    (s : Surroundings) : ∃ n, Reaches (begin context workers files tree) n
      (Batch.run s (ofFiles context workers files tree)).value :=
  Reaches.runRounds s _ .refl

end Advancing

end Progress

/-- **Every file is dealt with once.**  Whatever the prober, the transcoder and the copier do for
the jobs of a batch, and in whatever order the jobs go on with one worker or more: there is an end
to the moves that are due, and then every file has been reported once, with a result of one class,
and counted in that class. -/
theorem settles_of_reaches {context : ShowContext} {workers : Nat} {files : List Path}
    {tree : FileTree} {n : Nat} {p : Progress}
    (hrun : Progress.Reaches (.begin context workers files tree) n p) (hworkers : 1 ≤ workers) :
    n ≤ 7 * files.length ∧ (p.batch.IsIdle → p.Settles files) := by
  obtain ⟨hcourse, hleft⟩ := hrun.isOnCourse
  exact ⟨Nat.le_trans (Nat.le_add_right _ _) hleft, fun hidle => hcourse.settles hworkers hidle⟩

/-- Two jobs for one file: the prober breaks down for the first, and the second copies the file. -/
def crashingMoves : List BatchMove :=
  [⟨0, .start⟩, ⟨0, .answer (.probed (.error (.broken "no prober")))⟩, ⟨0, .goOn⟩, ⟨1, .start⟩,
    ⟨1, .answer (.probed (.ok ⟨60, none, 1, false⟩))⟩, ⟨1, .goOn⟩, ⟨1, .copy⟩, ⟨1, .goOn⟩]

theorem crashingMoves_settle :
    let source : Path := ⟨0, ["a.wav"]⟩
    let start := Progress.begin (.named "Show") 1 [source, source]
      ⟨[], [(["a.wav"], .file ⟨#[1]⟩)]⟩
    let p := start.follow crashingMoves
    p.Settles [source, source] ∧
      p.results.map (fun r => r.2.error) = [some "Unexpected error: no prober", none] := by
  intro source start p
  have hrun : Progress.Reaches start 8 p := Progress.Reaches.refl.follow crashingMoves
    (by decide +kernel)
  have hidle : p.batch.IsIdle := isIdle_of_isEnded (by decide +kernel)
  exact ⟨(settles_of_reaches hrun (by decide)).2 hidle, by decide +kernel⟩

end BroadcastIntake.Batch
