import BroadcastIntake.Proofs.Job.Tracking

/-!
# The effect of a job on the file tree

What one job does to a file tree when no other job is under way, whatever the prober, the
transcoder and the copier do and wherever the job is cancelled: no file that was there before is
lost or changed, a job that succeeds makes exactly one file, and a job that ends in any other way
makes none.

The proof carries one invariant, `Alone`, along the moves of the job.  It says of every location
that the job does not hold that nothing happened there, except that a directory may have been made.
-/

namespace BroadcastIntake

open FileTree (Extends)

/-- A file stands where no file stood before. -/
def FileTree.IsNewFile (before after : FileTree) (l : Location) : Prop :=
  (∃ content, after.get? l = some (.file content)) ∧
    ∀ content, before.get? l ≠ some (.file content)

/-- The job ended with a result that says so. -/
def JobEnd.Succeeds : JobEnd → Prop
  | .finished result => result.success = true
  | .cancelled | .crashed _ => False

namespace Slot

/-- What holds of a job for `source` in a tree that grew from `initial` by its moves alone. -/
structure Alone (initial : FileTree) (source : Path) (tree : FileTree) (slot : Slot) : Prop where
  tracks : ∃ bytes, Tracks initial source tree bytes slot
  grown : Extends initial tree
  elsewhere : ∀ l, ¬ Holds tree slot l → tree.get? l = initial.get? l ∨
    initial.get? l = none ∧ tree.get? l = some .directory
  /-- Before the job starts nothing happens. -/
  waits : slot = queued → tree = initial
  /-- Only a source that is a file gets as far as an output. -/
  readable : ∀ path, slot.output? = some path → ∃ content, initial.read source = .ok content

section Running

variable {initial tree : FileTree} {source : Path} {slot : Slot}

theorem alone_queued (tree : FileTree) (source : Path) : Alone tree source tree queued where
  tracks := ⟨ByteArray.empty, .queued⟩
  grown := .refl tree
  elsewhere := fun _ _ => .inl rfl
  waits := fun _ => rfl
  readable := fun path houtput => by cases houtput

/-- A job that has an output after its first move has found its source. -/
theorem readable_of_queued {c : ShowContext} {m : JobMove} {path : Path}
    (houtput : ((queued.move c source tree m).value.2).output? = some path) :
    ∃ content, tree.read source = .ok content := by
  cases m with
  | start =>
      have heffect := FileJob.start_effect c source tree
      simp only [move, Logged.value_bind, Logged.value_pure] at houtput
      generalize (FileJob.start c source tree).value = outcome at heffect houtput
      cases heffect with
      | begins reserved w place hsource => exact hsource
      | ends left ending hfails =>
          cases ending with
          | finished result => cases hfails.2.symm.trans houtput
          | cancelled => cases houtput
          | crashed crash => cases houtput
  | write content => cases houtput
  | copy => cases houtput
  | answer event => cases houtput
  | cancel => cases houtput
  | goOn => cases houtput

theorem ofOutcome_ne_queued (outcome : FileTree × JobProgress) (kept : Option JobEvent) :
    (ofOutcome outcome kept).2 ≠ queued := by
  obtain ⟨left, next | ending⟩ := outcome <;> simp [ofOutcome]

/-- A job that is still queued after a move has not been touched by it. -/
theorem eq_of_still_queued {c : ShowContext} {m : JobMove}
    (hqueued : (slot.move c source tree m).value.2 = queued) :
    slot = queued ∧ (slot.move c source tree m).value.1 = tree := by
  have heffect := move_effect c source tree ByteArray.empty slot m
  generalize (slot.move c source tree m).value = outcome at heffect hqueued
  generalize bytesAfter tree slot m ByteArray.empty = made at heffect
  cases heffect with
  | stays => exact ⟨hqueued, rfl⟩
  | starts => exact absurd hqueued (ofOutcome_ne_queued _ _)
  | writes => cases hqueued
  | copies => cases hqueued
  | answers => cases hqueued
  | cancels => exact absurd hqueued (ofOutcome_ne_queued _ _)
  | goesOn => exact absurd hqueued (ofOutcome_ne_queued _ _)

/-- A move of a job that is alone keeps what holds of it. -/
theorem Alone.move (c : ShowContext) (halone : Alone initial source tree slot) {m : JobMove}
    (hhonest : m.IsHonest) :
    Alone initial source (slot.move c source tree m).value.1
      (slot.move c source tree m).value.2 := by
  obtain ⟨bytes, htracks⟩ := halone.tracks
  obtain ⟨hafter, hconfined⟩ := move_tracks c htracks halone.grown hhonest
  obtain ⟨places, hframe, hplaces⟩ := hconfined.frame
  have hnew : ∀ l ∈ places, initial.get? l = none := by
    intro l hl
    rcases hplaces l hl with hheld | ⟨hfree, -⟩
    · exact htracks.isNew hheld
    · exact halone.grown.of_none hfree
  refine ⟨⟨_, hafter⟩, halone.grown.step hframe hnew, ?_, ?_, ?_⟩
  · intro l hnot
    by_cases hheld : Holds tree slot l
    · -- the job has given the place up, so no file stands there any more
      rcases hconfined.released l hheld with hstill | hgone
      · exact absurd hstill hnot
      · rcases hfound : (slot.move c source tree m).value.1.get? l with _ | (_ | content)
        · exact .inl (htracks.isNew hheld).symm
        · exact .inr ⟨htracks.isNew hheld, rfl⟩
        · exact absurd hfound (hgone content)
    · have hl : l ∉ places := by
        intro hl
        rcases hplaces l hl with h | ⟨-, h⟩
        · exact hheld h
        · exact hnot h
      rcases halone.elsewhere l hheld with hsame | ⟨hfree, hmade⟩
      · rw [← hsame]
        exact hframe.elsewhere l hl
      · exact .inr ⟨hfree, hframe.keeps.directory l hmade⟩
  · intro hqueued
    obtain ⟨hslot, htree⟩ := eq_of_still_queued hqueued
    rw [htree]
    exact halone.waits hslot
  · -- an output is held already, or comes with the start of the job
    intro path houtput
    obtain ⟨place, -, hholds⟩ := hafter.exists_holds houtput
    rcases hconfined.held place hholds with ⟨path', hpath', -⟩ | ⟨rfl, -⟩
    · exact halone.readable path' hpath'
    · rw [halone.waits rfl] at houtput
      exact readable_of_queued houtput

/-- The run lemma: what holds of a job that is alone holds after any sequence of moves. -/
theorem Alone.moves (c : ShowContext) (ms : List JobMove) (hhonest : ∀ m ∈ ms, m.IsHonest) :
    ∀ {tree : FileTree} {slot : Slot}, Alone initial source tree slot →
      Alone initial source (slot.moves c source tree ms).value.1
        (slot.moves c source tree ms).value.2 := by
  induction ms with
  | nil =>
      intro tree slot halone
      exact halone
  | cons m rest ih =>
      intro tree slot halone
      have hmove := halone.move c (hhonest m List.mem_cons_self)
      exact ih (fun m' hm' => hhonest m' (List.mem_cons_of_mem m hm')) hmove

/-- What is left when a job that was alone has succeeded. -/
theorem Alone.of_success {ending : JobEnd} (halone : Alone initial source tree (ended ending))
    (hsucceeds : ending.Succeeds) :
    ∃ result output content, ending = .finished result ∧ result.output = some output ∧
      tree.read output = .ok content ∧
      (∀ l, initial.IsNewFile tree l ↔ tree.place? output = some l) ∧
      (result.transcoded = false → initial.read source = .ok content) := by
  obtain ⟨bytes, htracks⟩ := halone.tracks
  cases htracks with
  | delivered result output transcoded place hdelivers hplace hnew hfile hsource =>
      have hholds : ∀ l, Holds tree (ended (.finished result)) l ↔ tree.place? output = some l :=
        fun l => holds_delivered_iff hdelivers
      refine ⟨result, output, bytes, rfl, hdelivers.output,
        FileTree.read_eq_ok_iff.2 ⟨place, hplace, hfile⟩, ?_, ?_⟩
      · intro l
        constructor
        · -- elsewhere only directories are new
          rintro ⟨⟨content, hthere⟩, hbefore⟩
          refine Decidable.byContradiction fun hother => ?_
          rcases halone.elsewhere l (fun h => hother ((hholds l).1 h)) with hsame | ⟨-, hmade⟩
          · exact hbefore content (hsame ▸ hthere)
          · rw [hmade] at hthere
            cases hthere
        · intro hl
          obtain rfl : place = l := Option.some.inj (hplace.symm.trans hl)
          exact ⟨⟨bytes, hfile⟩, by simp [hnew]⟩
      · intro hcopied
        obtain ⟨content, hread⟩ := halone.readable output hdelivers.output
        rw [hread, hsource (hdelivers.transcoded ▸ hcopied) content hread]
  | failed ending hfails =>
      cases ending with
      | finished result =>
          rw [JobEnd.Succeeds, hfails.1] at hsucceeds
          cases hsucceeds
      | cancelled => cases hsucceeds
      | crashed crash => cases hsucceeds

/-- Nothing is left when a job that was alone has ended in any other way. -/
theorem Alone.of_failure {ending : JobEnd} (halone : Alone initial source tree (ended ending))
    (hfails : ¬ ending.Succeeds) (l : Location) : ¬ initial.IsNewFile tree l := by
  rintro ⟨⟨content, hthere⟩, hbefore⟩
  obtain ⟨bytes, htracks⟩ := halone.tracks
  cases htracks with
  | delivered result output transcoded place hdelivers =>
      exact hfails hdelivers.success
  | failed ending hnone =>
      rcases halone.elsewhere l (not_holds_of_fails hnone) with hsame | ⟨-, hmade⟩
      · exact hbefore content (hsame ▸ hthere)
      · rw [hmade] at hthere
        cases hthere

end Running

/-- What a job for `source` does to a tree, with the slot that it comes to. -/
structure Affects (source : Path) (before after : FileTree) (slot : Slot) : Prop where
  /-- Every file that was there before still stands with its bytes. -/
  kept : ∀ l content, before.get? l = some (.file content) → after.get? l = some (.file content)
  /-- A job that has succeeded has made exactly one file, its output; unless the output was
  transcoded it has the bytes of the source. -/
  success : ∀ ending, slot = ended ending → ending.Succeeds →
    ∃ result output content, ending = .finished result ∧ result.output = some output ∧
      after.read output = .ok content ∧
      (∀ l, before.IsNewFile after l ↔ after.place? output = some l) ∧
      (result.transcoded = false → before.read source = .ok content)
  /-- A job that has ended with a failed result, in a crash or cancelled has made no file. -/
  failure : ∀ ending, slot = ended ending → ¬ ending.Succeeds → ∀ l, ¬ before.IsNewFile after l

/-- **The effect of one job.**  Whatever the prober, the transcoder and the copier do for a job, in
whatever order, and wherever the job is cancelled, it affects the tree only by its output. -/
theorem moves_affects (c : ShowContext) (source : Path) (tree : FileTree) (ms : List JobMove)
    (hhonest : ∀ m ∈ ms, m.IsHonest) :
    Affects source tree (queued.moves c source tree ms).value.1
      (queued.moves c source tree ms).value.2 := by
  have halone := Alone.moves c ms hhonest (alone_queued tree source)
  generalize (queued.moves c source tree ms).value = run at halone ⊢
  obtain ⟨after, slot⟩ := run
  refine ⟨halone.grown.file, ?_, ?_⟩
  · rintro ending rfl hsucceeds
    exact halone.of_success hsucceeds
  · rintro ending rfl hfails
    exact halone.of_failure hfails

/-- The moves of a job that is probed, copied and done. -/
def copyingMoves : List JobMove :=
  [.start, .answer (.probed (.ok ⟨60, none, 1, false⟩)), .goOn, .copy, .goOn]

/-- A job that copies the file `a.wav` ends and affects the tree as it should. -/
theorem copyingMoves_affects :
    let source : Path := ⟨0, ["a.wav"]⟩
    let tree : FileTree := ⟨[], [(["a.wav"], .file ⟨#[1]⟩)]⟩
    let run := (queued.moves (.named "Show") source tree copyingMoves).value
    (∀ m ∈ copyingMoves, m.IsHonest) ∧ run.2.output? = some ⟨0, ["Output", "Show.wav"]⟩ ∧
      Affects source tree run.1 run.2 := by
  have hhonest : ∀ m ∈ copyingMoves, m.IsHonest := by simp [copyingMoves, JobMove.IsHonest]
  exact ⟨hhonest, by decide +kernel, moves_affects _ _ _ _ hhonest⟩

end Slot

end BroadcastIntake
