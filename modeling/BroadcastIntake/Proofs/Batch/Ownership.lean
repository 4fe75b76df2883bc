import BroadcastIntake.Batch
import BroadcastIntake.Proofs.Job.Tracking

/-!
# Who owns an output file

The jobs of a batch share one tree, and each is to have an output of its own.  A reservation makes
a file, and another reservation of the same place fails as long as that file stands.  It does not
stand all the time: a transcode that fails is cleaned up before the source is copied in its place,
and a job that starts in between is given the same output.

This is the only way to lose ownership.  A run keeps all outputs apart if and only if no job starts
with the place of one that waits for its copy with nothing at its output; and then all that
exclusive outputs are good for follows.
-/

namespace BroadcastIntake.Batch

open FileTree (Extends)

/-- The job of the file at a position has an output with the given place. -/
def Holds (b : Batch) (position : Nat) (place : Location) : Prop :=
  ∃ source slot, b.slots[position]? = some (source, slot) ∧ slot.Holds b.tree place

/-- No two jobs have outputs in the same place. -/
def Exclusive (b : Batch) : Prop :=
  ∀ i j place, b.Holds i place → b.Holds j place → i = j

/-- A job waits for a copy and nothing stands at its output. -/
def Unguarded (b : Batch) (position : Nat) (place : Location) : Prop :=
  ∃ source w answer, b.slots[position]? = some (source, .waiting w answer) ∧
    w.stage.isCopying = true ∧ b.tree.place? w.job.output = some place ∧
      b.tree.get? place = none

/-- A job starts and is given the place of another that is unguarded. -/
def TakesOver (b : Batch) (m : BatchMove) : Prop :=
  m.move = .start ∧ ∃ j place, j ≠ m.position ∧ b.Unguarded j place ∧
    ¬ b.Holds m.position place ∧ (b.move m).value.Holds m.position place

/-- A move leaves the files at the outputs of all other jobs as they are, and makes none there. -/
def SparesOthers (b : Batch) (m : BatchMove) : Prop :=
  ∀ j place, j ≠ m.position → b.Holds j place → ∀ content,
    (b.move m).value.tree.get? place = some (.file content) ↔
      b.tree.get? place = some (.file content)

/-- Every move of a sequence has a property in the state in which it is made. -/
def Along (P : Batch → BatchMove → Prop) (b : Batch) : List BatchMove → Prop
  | [] => True
  | m :: rest => P b m ∧ Along P (b.move m).value rest

/-- The bytes made last for the job at a position, after a move; see `Slot.bytesAfter`. -/
def bytesAfter (b : Batch) (m : BatchMove) (position : Nat) (bytes : ByteArray) : ByteArray :=
  match b.slots[position]? with
  | some (_, slot) =>
    if m.position = position ∧ b.isHeldUp m.move = false then
      slot.bytesAfter b.tree m.move bytes
    else bytes
  | none => bytes

/-- The bytes made last for the job at a position, after a sequence of moves. -/
def bytesAfterMoves (b : Batch) (position : Nat) (bytes : ByteArray) :
    List BatchMove → ByteArray
  | [] => bytes
  | m :: rest =>
    (b.move m).value.bytesAfterMoves position (b.bytesAfter m position bytes) rest

/-- What comes of a batch whose jobs keep apart, with the bytes made last for each job. -/
structure Delivers (initial : FileTree) (b : Batch) (bytes : Nat → ByteArray) : Prop where
  /-- The outputs of the results are pairwise different. -/
  distinct : (b.results.filterMap fun r => r.2.output).Nodup
  /-- Every output holds what was made last for its job. -/
  own : ∀ (i : Nat) (source output : Path) (result : JobResult),
    b.slots[i]? = some (source, .ended (.finished result)) → result.output = some output →
      b.tree.read output = .ok (bytes i)
  /-- An output that was not transcoded holds the bytes of its source. -/
  copied : ∀ (i : Nat) (source output : Path) (result : JobResult) (content : ByteArray),
    b.slots[i]? = some (source, .ended (.finished result)) → result.output = some output →
      result.transcoded = false → initial.read source = .ok content →
        b.tree.read output = .ok content
  /-- Every file that was there before still stands with its bytes. -/
  kept : ∀ l content, initial.get? l = some (.file content) → b.tree.get? l = some (.file content)

/-! ## One move -/

/-- The batch after the job at the position of a move has made the move. -/
theorem move_eq {b : Batch} {m : BatchMove} {source : Path} {slot : Slot}
    (hslot : b.slots[m.position]? = some (source, slot)) (hheld : b.isHeldUp m.move = false) :
    (b.move m).value =
      { b with
        tree := (slot.move b.context source b.tree m.move).value.1
        slots := b.slots.set m.position
          (source, (slot.move b.context source b.tree m.move).value.2) } := by
  simp [move, hslot, hheld]

/-- A move is made by the job at its position, or nothing happens. -/
theorem move_cases (b : Batch) (m : BatchMove) :
    (b.move m).value = b ∧ (∀ i bytes, b.bytesAfter m i bytes = bytes) ∨
      ∃ source slot, b.slots[m.position]? = some (source, slot) ∧ b.isHeldUp m.move = false := by
  rcases hslot : b.slots[m.position]? with _ | ⟨source, slot⟩
  · refine .inl ⟨by simp [move, hslot], ?_⟩
    intro i bytes
    unfold bytesAfter
    split
    · rename_i hother
      refine if_neg ?_
      rintro ⟨rfl, -⟩
      rw [hslot] at hother
      cases hother
    · rfl
  · rcases hheld : b.isHeldUp m.move with _ | _
    · exact .inr ⟨source, slot, rfl, rfl⟩
    · refine .inl ⟨by simp [move, hslot, hheld], ?_⟩
      intro i bytes
      unfold bytesAfter
      split
      · exact if_neg (by simp [hheld])
      · rfl

/-- The slots after a move: the one at its position is new, the others stay. -/
theorem getElem?_move {b : Batch} {m : BatchMove} {source : Path} {slot : Slot}
    (hslot : b.slots[m.position]? = some (source, slot)) (hheld : b.isHeldUp m.move = false)
    (i : Nat) :
    (b.move m).value.slots[i]? =
      if i = m.position then
        some (source, (slot.move b.context source b.tree m.move).value.2)
      else b.slots[i]? := by
  rw [move_eq hslot hheld]
  by_cases hi : i = m.position
  · subst hi
    obtain ⟨hlt, -⟩ := List.getElem?_eq_some_iff.1 hslot
    simp [hlt]
  · rw [if_neg hi]
    exact List.getElem?_set_ne (Ne.symm hi)

/-- What holds of a batch whose jobs keep apart, in a tree that grew from `initial`. -/
structure Sound (initial : FileTree) (b : Batch) (bytes : Nat → ByteArray) : Prop where
  grown : Extends initial b.tree
  tracks : ∀ i (source : Path) (slot : Slot), b.slots[i]? = some (source, slot) →
    slot.Tracks initial source b.tree (bytes i)
  exclusive : b.Exclusive

section Moving

variable {initial : FileTree} {b : Batch} {bytes : Nat → ByteArray} {m : BatchMove}
  {source : Path} {slot : Slot}

theorem Sound.holds_unique (hsound : Sound initial b bytes) {i j : Nat} {place : Location}
    {sourceᵢ sourceⱼ : Path} {slotᵢ slotⱼ : Slot} (hi : b.slots[i]? = some (sourceᵢ, slotᵢ))
    (hj : b.slots[j]? = some (sourceⱼ, slotⱼ)) (hholdsᵢ : slotᵢ.Holds b.tree place)
    (hholdsⱼ : slotⱼ.Holds b.tree place) : i = j :=
  hsound.exclusive i j place ⟨_, _, hi, hholdsᵢ⟩ ⟨_, _, hj, hholdsⱼ⟩

/-- Only a start gives a queued job an output. -/
theorem start_of_holds {c : ShowContext} {tree : FileTree} {jm : JobMove} {place : Location}
    (hholds : Slot.Holds (Slot.queued.move c source tree jm).value.1
      (Slot.queued.move c source tree jm).value.2 place) : jm = .start := by
  cases jm with
  | start => rfl
  | _ => exact absurd hholds Slot.not_holds_queued

/-- Unless a move takes over an output, the job that moves and any other job hold different
places. -/
theorem Sound.apart (hsound : Sound initial b bytes) (hhonest : m.move.IsHonest)
    (hno : ¬ b.TakesOver m) (hslot : b.slots[m.position]? = some (source, slot))
    (hheld : b.isHeldUp m.move = false) {j : Nat} (hne : j ≠ m.position) {sourceⱼ : Path}
    {slotⱼ : Slot} (hj : b.slots[j]? = some (sourceⱼ, slotⱼ)) {place : Location}
    (hafter : Slot.Holds (slot.move b.context source b.tree m.move).value.1
      (slot.move b.context source b.tree m.move).value.2 place) :
    ¬ slotⱼ.Holds b.tree place := by
  intro hother
  obtain ⟨-, hconfined⟩ :=
    Slot.move_tracks b.context (hsound.tracks _ _ _ hslot) hsound.grown hhonest
  rcases hconfined.held place hafter with hbefore | ⟨rfl, hfree⟩
  · exact hne (hsound.holds_unique hj hslot hother hbefore)
  · -- the place is new to the job, and free: so the other job is unguarded
    obtain ⟨w, answer, rfl, hcopying⟩ := (hsound.tracks _ _ _ hj).isCopying_of_none hother hfree
    refine hno ⟨start_of_holds hafter, j, place, hne, ⟨_, w, answer, hj, hcopying,
      Slot.holds_waiting_iff.1 hother, hfree⟩, ?_, ?_⟩
    · rintro ⟨_, _, hqueued, hholds⟩
      rw [hslot] at hqueued
      cases hqueued
      exact Slot.not_holds_queued hholds
    · refine ⟨source, _, by rw [getElem?_move hslot hheld, if_pos rfl], ?_⟩
      rw [move_eq hslot hheld]
      exact hafter

/-- Whoever else holds a place keeps it from the job that moves. -/
theorem Sound.frame (hsound : Sound initial b bytes) (hhonest : m.move.IsHonest)
    (hno : ¬ b.TakesOver m) (hslot : b.slots[m.position]? = some (source, slot))
    (hheld : b.isHeldUp m.move = false) :
    ∃ places, b.tree.ChangesOnlyAt places (b.move m).value.tree ∧
      (∀ l ∈ places, initial.get? l = none) ∧
      ∀ l ∈ places, ∀ j, j ≠ m.position → ∀ (sourceⱼ : Path) (slotⱼ : Slot),
        b.slots[j]? = some (sourceⱼ, slotⱼ) → ¬ slotⱼ.Holds b.tree l := by
  have htracks := hsound.tracks _ _ _ hslot
  obtain ⟨-, hconfined⟩ := Slot.move_tracks b.context htracks hsound.grown hhonest
  obtain ⟨places, hframe, hplaces⟩ := hconfined.frame
  refine ⟨places, by rw [move_eq hslot hheld]; exact hframe, ?_, ?_⟩
  · intro l hl
    rcases hplaces l hl with hbefore | ⟨hfree, -⟩
    · exact htracks.isNew hbefore
    · exact hsound.grown.of_none hfree
  · intro l hl j hne sourceⱼ slotⱼ hj hother
    rcases hplaces l hl with hbefore | ⟨-, hafter⟩
    · exact hne (hsound.holds_unique hj hslot hother hbefore)
    · exact hsound.apart hhonest hno hslot hheld hne hj hafter hother

/-- Unless a move takes over an output, it keeps the jobs of a batch apart. -/
theorem Sound.move (hsound : Sound initial b bytes) (hhonest : m.move.IsHonest)
    (hno : ¬ b.TakesOver m) :
    Sound initial (b.move m).value fun i => b.bytesAfter m i (bytes i) := by
  rcases b.move_cases m with ⟨hsame, hbytes⟩ | ⟨source, slot, hslot, hheld⟩
  · rw [hsame]
    simpa only [hbytes] using hsound
  have hmine := hsound.tracks _ _ _ hslot
  obtain ⟨htracks, hconfined⟩ := Slot.move_tracks b.context hmine hsound.grown hhonest
  obtain ⟨places, hframe, hnew, hothers⟩ := hsound.frame hhonest hno hslot hheld
  refine ⟨hsound.grown.step hframe hnew, ?_, ?_⟩
  · intro i sourceᵢ slotᵢ hi
    rw [getElem?_move hslot hheld] at hi
    split at hi
    · -- the job that moves
      rename_i hhere
      obtain ⟨rfl, rfl⟩ := Prod.mk.inj (Option.some.inj hi)
      subst hhere
      simpa [bytesAfter, hslot, hheld, move_eq hslot hheld] using htracks
    · -- every other job is left alone
      rename_i hne
      have hbytes : b.bytesAfter m i (bytes i) = bytes i := by
        simp [bytesAfter, hi, Ne.symm hne]
      rw [hbytes]
      exact (hsound.tracks i _ _ hi).frame hframe fun l hl => hothers l hl i hne _ _ hi
  · rintro i j place ⟨sourceᵢ, slotᵢ, hi, hholdsᵢ⟩ ⟨sourceⱼ, slotⱼ, hj, hholdsⱼ⟩
    rw [getElem?_move hslot hheld] at hi hj
    -- what another job holds after the move it held before
    have hback : ∀ {k : Nat} {sourceₖ : Path} {slotₖ : Slot},
        b.slots[k]? = some (sourceₖ, slotₖ) → slotₖ.Holds (b.move m).value.tree place →
          slotₖ.Holds b.tree place := fun hk hholds =>
      (hsound.tracks _ _ _ hk).holds_of_after hframe.keeps hholds
    have hmove : ∀ {slot' : Slot}, slot'.Holds (b.move m).value.tree place →
        slot'.Holds (slot.move b.context source b.tree m.move).value.1 place := by
      intro slot' hholds
      rwa [move_eq hslot hheld] at hholds
    split at hi <;> split at hj <;> rename_i hhereᵢ hhereⱼ
    · rw [hhereᵢ, hhereⱼ]
    · obtain ⟨rfl, rfl⟩ := Prod.mk.inj (Option.some.inj hi)
      exact absurd (hback hj hholdsⱼ)
        (hsound.apart hhonest hno hslot hheld hhereⱼ hj (hmove hholdsᵢ))
    · obtain ⟨rfl, rfl⟩ := Prod.mk.inj (Option.some.inj hj)
      exact absurd (hback hi hholdsᵢ)
        (hsound.apart hhonest hno hslot hheld hhereᵢ hi (hmove hholdsⱼ))
    · exact hsound.holds_unique hi hj (hback hi hholdsᵢ) (hback hj hholdsⱼ)

theorem Sound.sparesOthers (hsound : Sound initial b bytes) (hhonest : m.move.IsHonest)
    (hno : ¬ b.TakesOver m) : b.SparesOthers m := by
  rintro j place hne ⟨sourceⱼ, slotⱼ, hj, hholds⟩ content
  rcases b.move_cases m with ⟨hsame, -⟩ | ⟨source, slot, hslot, hheld⟩
  · rw [hsame]
  · obtain ⟨places, hframe, -, hothers⟩ := hsound.frame hhonest hno hslot hheld
    have hplace : place ∉ places := fun hl => hothers place hl j hne _ _ hj hholds
    exact ⟨hframe.of_file hplace, hframe.file hplace⟩

/-- A job whose place is taken over still holds it, so the two jobs hold the same place. -/
theorem Sound.not_takesOver (hsound : Sound initial b bytes) (hhonest : m.move.IsHonest)
    (hexclusive : (b.move m).value.Exclusive) : ¬ b.TakesOver m := by
  rintro ⟨-, j, place, hne, ⟨sourceⱼ, w, answer, hj, -, hplace, -⟩, hbefore, hafter⟩
  rcases b.move_cases m with ⟨hsame, -⟩ | ⟨source, slot, hslot, hheld⟩
  · rw [hsame] at hafter
    exact hbefore hafter
  · obtain ⟨-, hconfined⟩ :=
      Slot.move_tracks b.context (hsound.tracks _ _ _ hslot) hsound.grown hhonest
    obtain ⟨places, hframe, -⟩ := hconfined.frame
    refine hne (hexclusive j m.position place ⟨sourceⱼ, .waiting w answer, ?_, ?_⟩ hafter)
    · rw [getElem?_move hslot hheld, if_neg hne, hj]
    · rw [move_eq hslot hheld]
      exact Slot.holds_waiting_iff.2 (hframe.place? hplace)

end Moving

/-! ## Runs -/

section Running

variable {initial : FileTree}

theorem sound_ofFiles (context : ShowContext) (workers : Nat) (files : List Path)
    (tree : FileTree) (bytes : Nat → ByteArray) :
    Sound tree (ofFiles context workers files tree) bytes := by
  have hqueued : ∀ (i : Nat) (source : Path) (slot : Slot),
      (ofFiles context workers files tree).slots[i]? = some (source, slot) →
        slot = Slot.queued := by
    intro i source slot hi
    simp only [ofFiles, List.getElem?_map, Option.map_eq_some_iff, Prod.mk.injEq] at hi
    obtain ⟨file, -, -, hslot⟩ := hi
    exact hslot.symm
  refine ⟨.refl tree, ?_, ?_⟩
  · intro i source slot hi
    rw [hqueued i source slot hi]
    exact .queued
  · rintro i j place ⟨source, slot, hi, hholds⟩ -
    rw [hqueued i source slot hi] at hholds
    exact absurd hholds Slot.not_holds_queued

/-- The run lemma: as long as no output is taken over, the jobs of a batch keep apart. -/
theorem Sound.moves (ms : List BatchMove) (hhonest : ∀ m ∈ ms, m.move.IsHonest) :
    ∀ {b : Batch} {bytes : Nat → ByteArray}, Sound initial b bytes →
      b.Along (fun b m => ¬ b.TakesOver m) ms →
      Sound initial (b.moves ms).value (fun i => b.bytesAfterMoves i (bytes i) ms) ∧
        b.Along (fun b m => (b.move m).value.Exclusive) ms ∧ b.Along SparesOthers ms := by
  induction ms with
  | nil =>
      intro b bytes hsound _
      exact ⟨hsound, trivial, trivial⟩
  | cons m rest ih =>
      intro b bytes hsound hno
      have hfirst := hhonest m List.mem_cons_self
      have hmoved := hsound.move hfirst hno.1
      obtain ⟨hlast, hexclusive, hspares⟩ :=
        ih (fun m' hm' => hhonest m' (List.mem_cons_of_mem m hm')) hmoved hno.2
      exact ⟨hlast, ⟨hmoved.exclusive, hexclusive⟩, hsound.sparesOthers hfirst hno.1, hspares⟩

/-- A run in which the jobs always keep apart takes over no output. -/
theorem Sound.along_not_takesOver (ms : List BatchMove) (hhonest : ∀ m ∈ ms, m.move.IsHonest) :
    ∀ {b : Batch} {bytes : Nat → ByteArray}, Sound initial b bytes →
      b.Along (fun b m => (b.move m).value.Exclusive) ms →
      b.Along (fun b m => ¬ b.TakesOver m) ms := by
  induction ms with
  | nil =>
      intro b bytes _ _
      trivial
  | cons m rest ih =>
      intro b bytes hsound hexclusive
      have hfirst := hhonest m List.mem_cons_self
      have hno := hsound.not_takesOver hfirst hexclusive.1
      exact ⟨hno, ih (fun m' hm' => hhonest m' (List.mem_cons_of_mem m hm'))
        (hsound.move hfirst hno) hexclusive.2⟩

/-- The output that a result of a batch names is that of its slot. -/
theorem output?_of_result {source output : Path} {slot : Slot} {result : Path × JobResult}
    (hresult : (match slot with
      | .ended ending => (resultOf ending).map (source, ·)
      | _ => none) = some result) (houtput : result.2.output = some output) :
    slot.output? = some output := by
  cases slot with
  | queued => cases hresult
  | waiting w answer => cases hresult
  | ended ending =>
      cases ending with
      | finished r =>
          obtain rfl : (source, r) = result := Option.some.inj hresult
          exact houtput
      | cancelled => cases hresult
      | crashed crash =>
          rw [← Option.some.inj hresult] at houtput
          cases houtput

theorem Sound.nodup_outputs {b : Batch} {bytes : Nat → ByteArray}
    (hsound : Sound initial b bytes) : (b.results.filterMap fun r => r.2.output).Nodup := by
  rw [results, List.filterMap_filterMap, List.Nodup, List.pairwise_filterMap,
    List.pairwise_iff_getElem]
  intro i j hi hj hlt output houtputᵢ output' houtputⱼ hsame
  subst hsame
  have hslot : ∀ {k : Nat} (hk : k < b.slots.length),
      b.slots[k]? = some (b.slots[k].1, b.slots[k].2) := fun hk => List.getElem?_eq_getElem hk
  obtain ⟨resultᵢ, hresultᵢ, hᵢ⟩ := Option.bind_eq_some_iff.1 houtputᵢ
  obtain ⟨resultⱼ, hresultⱼ, hⱼ⟩ := Option.bind_eq_some_iff.1 houtputⱼ
  -- both jobs hold the place of the output that they name
  obtain ⟨place, hplace, hholdsᵢ⟩ :=
    (hsound.tracks i _ _ (hslot hi)).exists_holds (output?_of_result hresultᵢ hᵢ)
  have hholdsⱼ : b.slots[j].2.Holds b.tree place :=
    ⟨output, output?_of_result hresultⱼ hⱼ, hplace⟩
  have heq := hsound.holds_unique (hslot hi) (hslot hj) hholdsᵢ hholdsⱼ
  omega

/-- Jobs that keep apart deliver what was made for them. -/
theorem Sound.delivers {b : Batch} {bytes : Nat → ByteArray} (hsound : Sound initial b bytes) :
    Delivers initial b bytes where
  distinct := hsound.nodup_outputs
  own := by
    intro i source output result hi houtput
    cases hsound.tracks i _ _ hi with
    | delivered result output' transcoded place hdelivers hplace hnew hfile =>
        obtain rfl : output' = output := Option.some.inj (hdelivers.output.symm.trans houtput)
        exact FileTree.read_eq_ok_iff.2 ⟨place, hplace, hfile⟩
    | failed ending hfails => cases hfails.2.symm.trans houtput
  copied := by
    intro i source output result content hi houtput hcopied hread
    cases hsound.tracks i _ _ hi with
    | delivered result output' transcoded place hdelivers hplace hnew hfile hsource =>
        obtain rfl : output' = output := Option.some.inj (hdelivers.output.symm.trans houtput)
        rw [← hsource (hdelivers.transcoded ▸ hcopied) content hread]
        exact FileTree.read_eq_ok_iff.2 ⟨place, hplace, hfile⟩
    | failed ending hfails => cases hfails.2.symm.trans houtput
  kept := hsound.grown.file

/-- A single worker is not free while a job waits for a copy. -/
theorem not_takesOver_of_one_worker {b : Batch} (hworkers : b.workers ≤ 1) (m : BatchMove) :
    ¬ b.TakesOver m := by
  rintro ⟨hstart, j, place, -, ⟨source, w, answer, hj, -⟩, hbefore, hafter⟩
  have hactive : 0 < b.activeCount :=
    List.countP_pos_iff.2 ⟨_, List.mem_of_getElem? hj, rfl⟩
  rcases b.move_cases m with ⟨hsame, -⟩ | ⟨_, _, -, hheld⟩
  · rw [hsame] at hafter
    exact hbefore hafter
  · have hfree : b.activeCount < b.workers := by simpa [isHeldUp, hstart] using hheld
    omega

theorem workers_move (b : Batch) (m : BatchMove) : (b.move m).value.workers = b.workers := by
  rcases b.move_cases m with ⟨hsame, -⟩ | ⟨source, slot, hslot, hheld⟩
  · rw [hsame]
  · rw [move_eq hslot hheld]

/-- With a single worker no output is ever taken over. -/
theorem along_not_takesOver_of_one_worker (ms : List BatchMove) :
    ∀ {b : Batch}, b.workers ≤ 1 → b.Along (fun b m => ¬ b.TakesOver m) ms := by
  induction ms with
  | nil =>
      intro b _
      trivial
  | cons m rest ih =>
      intro b hworkers
      exact ⟨not_takesOver_of_one_worker hworkers m, ih (by rw [workers_move]; exact hworkers)⟩

end Running

/-- **Exclusive outputs.**  For all files, profiles and numbers of workers, whatever the prober,
the transcoder and the copier do and in whatever order the jobs of a batch move: no two jobs ever
hold the same output if and only if no job starts with the output of one that waits for its copy
after its transcode has failed and was removed.  Then no job touches a file of another, the outputs
of the results are pairwise different, and every output holds what its own job made. -/
theorem exclusive_iff_not_takesOver (context : ShowContext) (workers : Nat) (files : List Path)
    (tree : FileTree) (ms : List BatchMove) (hhonest : ∀ m ∈ ms, m.move.IsHonest) :
    let b := ofFiles context workers files tree
    (b.Along (fun b m => (b.move m).value.Exclusive) ms ↔
        b.Along (fun b m => ¬ b.TakesOver m) ms) ∧
      (b.Along (fun b m => ¬ b.TakesOver m) ms →
        b.Along SparesOthers ms ∧
          Delivers tree (b.moves ms).value fun i => b.bytesAfterMoves i ByteArray.empty ms) := by
  intro b
  have hsound := sound_ofFiles context workers files tree fun _ => ByteArray.empty
  refine ⟨⟨hsound.along_not_takesOver ms hhonest, fun hno => ?_⟩, fun hno => ?_⟩
  · exact (hsound.moves ms hhonest hno).2.1
  · obtain ⟨hlast, -, hspares⟩ := hsound.moves ms hhonest hno
    exact ⟨hspares, hlast.delivers⟩

/-- The moves of a job at a position that is probed, copied and done. -/
def copyingMoves (position : Nat) : List BatchMove :=
  [.start, .answer (.probed (.ok ⟨60, none, 1, false⟩)), .goOn, .copy, .goOn].map
    (⟨position, ·⟩)

/-- One worker copies two files of a show, both of which are to be named after it. -/
theorem copyingMoves_delivers :
    let tree : FileTree := ⟨[], [(["a.wav"], .file ⟨#[1]⟩), (["b.wav"], .file ⟨#[2]⟩)]⟩
    let b := ofFiles (.named "Show") 1 [⟨0, ["a.wav"]⟩, ⟨0, ["b.wav"]⟩] tree
    let ms := copyingMoves 0 ++ copyingMoves 1
    (∀ m ∈ ms, m.move.IsHonest) ∧
      (b.moves ms).value.results.filterMap (fun r => r.2.output) =
        [⟨0, ["Output", "Show.wav"]⟩, ⟨0, ["Output", "Show_1.wav"]⟩] ∧
      Delivers tree (b.moves ms).value fun i => b.bytesAfterMoves i ByteArray.empty ms := by
  intro tree b ms
  have hhonest : ∀ m ∈ ms, m.move.IsHonest := by
    simp [ms, copyingMoves, JobMove.IsHonest]
  have hno : b.Along (fun b m => ¬ b.TakesOver m) ms :=
    along_not_takesOver_of_one_worker ms (Nat.le_refl 1)
  exact ⟨hhonest, by decide +kernel,
    ((exclusive_iff_not_takesOver _ 1 _ tree ms hhonest).2 hno).2⟩

/-! ## A transcode that fails beside another job -/

/-- A show whose files are transcoded. -/
def transcodingShow : ShowContext :=
  { ShowContext.named "Show" with
    profile := { ShowProfile.named "Show" with
      audio := { AudioSettings.none with format := "mp3" } } }

/-- The moves of a job at a position whose transcode fails, up to the copy in its place. -/
def failingMoves (position : Nat) : List BatchMove :=
  [.start, .answer (.probed (.ok ⟨60, none, 1, false⟩)), .goOn,
    .answer (.transcoded (.error (.fault (.failed 1 "")))), .goOn].map (⟨position, ·⟩)

/-- The second job starts while the first waits for the copy in place of its transcode: both
succeed with one and the same output. -/
theorem failingMoves_share_output :
    let tree : FileTree := ⟨[], [(["a.wav"], .file ⟨#[1]⟩), (["b.wav"], .file ⟨#[2]⟩)]⟩
    let b := ofFiles transcodingShow 2 [⟨0, ["a.wav"]⟩, ⟨0, ["b.wav"]⟩] tree
    let ms := failingMoves 0 ++ failingMoves 1 ++ [⟨0, .copy⟩, ⟨0, .goOn⟩, ⟨1, .copy⟩, ⟨1, .goOn⟩]
    (∀ m ∈ ms, m.move.IsHonest) ∧
      (b.moves ms).value.results.filterMap (fun r => r.2.output) =
        [⟨0, ["Output", "Show.mp3"]⟩, ⟨0, ["Output", "Show.mp3"]⟩] ∧
      ¬ b.Along (fun b m => (b.move m).value.Exclusive) ms := by
  intro tree b ms
  have hhonest : ∀ m ∈ ms, m.move.IsHonest := by
    simp [ms, failingMoves, JobMove.IsHonest]
  have houtputs : (b.moves ms).value.results.filterMap (fun r => r.2.output) =
      [⟨0, ["Output", "Show.mp3"]⟩, ⟨0, ["Output", "Show.mp3"]⟩] := by decide +kernel
  refine ⟨hhonest, houtputs, fun hexclusive => ?_⟩
  have hsound := sound_ofFiles transcodingShow 2 [⟨0, ["a.wav"]⟩, ⟨0, ["b.wav"]⟩] tree
    fun _ => ByteArray.empty
  have hno := hsound.along_not_takesOver ms hhonest hexclusive
  have hdistinct := (hsound.moves ms hhonest hno).1.nodup_outputs
  rw [houtputs] at hdistinct
  exact absurd hdistinct (by decide)

end BroadcastIntake.Batch
