import BroadcastIntake.Proofs.Job.Tracking

/-!
# Jobs spare the files that they find

A job is given an output in a free place, and it writes nowhere else.  So a file that stands when a
job starts stays as it is for as long as it stands (`Slot.move_spares`), whatever the job is
answered and whatever other jobs do.  Nothing is assumed about the outputs of other jobs here: two
jobs that share an output spare the file all the same.
-/

namespace BroadcastIntake

open FileTree (ChangesOnlyAt)

namespace OutputFile

/-- A copy changes no file but its destination, whether it succeeds or not. -/
theorem copy_changesOnlyAt {tree : FileTree} {destination : Path} {place : Location}
    (hplace : tree.place? destination = some place) (source : Path) :
    ChangesOnlyAt [place] tree (copy tree source destination).value.1 := by
  have hmade := tree.makeDirectories_changesOnlyAt destination.parent
  unfold copy
  split <;> rename_i hdirectories <;> rw [hdirectories] at hmade
  · exact hmade.of_nil
  · split
    · exact hmade.of_nil
    · rename_i hcontent
      obtain ⟨content, -, hwrite⟩ := copyContent_eq_ok hcontent
      exact hmade.of_nil.trans (FileTree.write_changesOnlyAt (hmade.place? hplace) hwrite).1

end OutputFile

namespace Slot

/-- The job of a file does not write to the place. -/
def Spares (l : Location) (tree : FileTree) : Slot → Prop
  | waiting w _ => ∃ place, tree.place? w.job.output = some place ∧ place ≠ l
  | queued | ended _ => True

/-- What a move comes to that leaves the file in a place as it is. -/
def SparesAfter (l : Location) (tree : FileTree) (after : FileTree × Slot) : Prop :=
  (∃ places, ChangesOnlyAt places tree after.1 ∧ l ∉ places) ∧ after.2.Spares l after.1

section Moving

variable {l : Location} {tree after : FileTree} {slot : Slot}

theorem Spares.mono (hkeeps : tree.KeepsDirectories after) (hspares : slot.Spares l tree) :
    slot.Spares l after := by
  cases slot with
  | queued => trivial
  | waiting w answer =>
      obtain ⟨place, hplace, hne⟩ := hspares
      exact ⟨place, hkeeps.place? hplace, hne⟩
  | ended ending => trivial

theorem Spares.sparesAfter (hspares : slot.Spares l tree) : SparesAfter l tree (tree, slot) :=
  ⟨⟨[], .refl [] tree, List.not_mem_nil⟩, hspares⟩

/-- A job that starts is given another place than that of a file. -/
theorem start_spares (c : ShowContext) (source : Path) {content : ByteArray}
    (hfile : tree.get? l = some (.file content)) :
    SparesAfter l tree (ofOutcome (FileJob.start c source tree).value none) := by
  have heffect := FileJob.start_effect c source tree
  generalize (FileJob.start c source tree).value = outcome at heffect
  cases heffect with
  | begins reserved w place _ _ _ hreserves =>
      have hne : place ≠ l := by
        rintro rfl
        rw [hreserves.wasFree] at hfile
        cases hfile
      exact ⟨⟨[place], hreserves.frame, by simpa using hne.symm⟩, place, hreserves.place?, hne⟩
  | ends left ending _ hframe => exact ⟨⟨[], hframe, List.not_mem_nil⟩, trivial⟩

/-- A later step of a job writes to its own output at most. -/
theorem step_spares {w : WaitingJob} {answer : Option JobEvent} (event : JobEvent)
    (kept : Option JobEvent) (hspares : (waiting w answer).Spares l tree) :
    SparesAfter l tree (ofOutcome (FileJob.step w event tree).value kept) := by
  obtain ⟨place, hplace, hne⟩ := hspares
  have heffect := FileJob.step_effect w event hplace
  generalize (FileJob.step w event tree).value = outcome at heffect
  have hnot : l ∉ [place] := by simpa using hne.symm
  cases heffect with
  | ignores => exact ⟨⟨[], .refl [] tree, List.not_mem_nil⟩, place, hplace, hne⟩
  | goesOn changed next hjob _ _ hframe =>
      exact ⟨⟨[], hframe, List.not_mem_nil⟩, place, hjob ▸ hframe.place? hplace, hne⟩
  | fallsBack changed next failure hjob _ _ hframe =>
      exact ⟨⟨[place], hframe, hnot⟩, place, hjob ▸ hframe.place? hplace, hne⟩
  | abandons => exact ⟨⟨[], .refl [] tree, List.not_mem_nil⟩, place, hplace, hne⟩
  | transcodes => exact ⟨⟨[], .refl [] tree, List.not_mem_nil⟩, trivial⟩
  | copies => exact ⟨⟨[], .refl [] tree, List.not_mem_nil⟩, trivial⟩
  | fails left ending _ hframe => exact ⟨⟨[place], hframe, hnot⟩, trivial⟩

/-- What writes to the output of a job at most leaves the file as it is. -/
theorem Spares.write {w : WaitingJob} {answer : Option JobEvent}
    (hspares : (waiting w answer).Spares l tree)
    (hframe : ∀ place, tree.place? w.job.output = some place → ChangesOnlyAt [place] tree after)
    (kept : Option JobEvent) : SparesAfter l tree (after, waiting w kept) := by
  obtain ⟨place, hplace, hne⟩ := hspares
  have hchanges := hframe place hplace
  exact ⟨⟨[place], hchanges, by simpa using hne.symm⟩, place, hchanges.place? hplace, hne⟩

/-- **The step lemma.**  A move of a job that spares a file leaves it as it is and goes on sparing
it. -/
theorem move_spares (c : ShowContext) (source : Path) {content : ByteArray}
    (hfile : tree.get? l = some (.file content)) (hspares : slot.Spares l tree) (m : JobMove) :
    SparesAfter l tree (slot.move c source tree m).value := by
  have heffect := move_effect c source tree ByteArray.empty slot m
  generalize (slot.move c source tree m).value = outcome at heffect
  generalize bytesAfter tree slot m ByteArray.empty = made at heffect
  cases heffect with
  | stays => exact hspares.sparesAfter
  | starts => exact start_spares c source hfile
  | writes w =>
      refine hspares.write (fun place hplace => ?_) none
      rcases hwrite : tree.write w.job.output made with e | written
      · exact .refl [place] tree
      · exact (FileTree.write_changesOnlyAt hplace hwrite).1
  | copies w after outcome _ hcopy =>
      refine hspares.write (fun place hplace => ?_) _
      have hchanges := OutputFile.copy_changesOnlyAt hplace w.job.source
      rwa [hcopy] at hchanges
  | answers w event => exact hspares.sparesAfter
  | cancels w answer => exact step_spares .cancelled answer hspares
  | goesOn w event => exact step_spares event none hspares

/-- A job that has ended makes no move. -/
theorem move_ended (c : ShowContext) (source : Path) (tree : FileTree) (ending : JobEnd)
    (m : JobMove) : ((ended ending).move c source tree m).value = (tree, ended ending) := by
  cases m <;> rfl

end Moving

end Slot

end BroadcastIntake
