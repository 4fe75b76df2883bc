import BroadcastIntake.Proofs.Job.Locality
import BroadcastIntake.Proofs.Plan.Prediction
import Mathlib

/-!
# Batches whose outputs do not clash

The plans of a batch do not clash when the outputs that they name are different files that are not
there yet, in one directory.  Then no job comes into the way of another: all that the jobs do to
the tree is that the directory is made, by whichever starts first, and that files come and go at
the planned places (`IsUnderway`).

A turn of a file depends on the tree only through what stands at its own place.  If the file is not
taken on it is refused in every tree (`turn_of_refused`); if it is, the turn makes the directory
and changes its own place, in the same way in every tree in which it is ready (`exists_turn`).
-/

namespace BroadcastIntake

open FileTree (KeepsDirectories)

/-- What is planned for the files of a batch: a plan for each, and the place of its output. -/
structure BatchPlan where
  context : ShowContext
  files : List Path
  tree : FileTree
  plan : Path → Plan
  place : Path → Location

namespace BatchPlan

/-- The directory for the outputs. -/
def directory (p : BatchPlan) : Path :=
  Plan.outputDirectory p.context.profile p.context.settings p.context.outputDirectory

/-- The tree in which the directory for the outputs has been made. -/
def made (p : BatchPlan) : FileTree :=
  (p.tree.makeDirectories p.directory).1

/-- The job for a file as it is planned. -/
def job (p : BatchPlan) (file : Path) : Job :=
  FileJob.ofPlan p.context (p.plan file) (p.plan file).output

/-- The outputs that are planned are different files that are not there yet, directly in the
directory for them. -/
structure HasNoClash (p : BatchPlan) : Prop where
  planned : ∀ file ∈ p.files, (Plan.ofFile file p.context.profile p.context.settings
    p.context.outputDirectory p.context.today).value = .ok (p.plan file)
  directory : (p.tree.makeDirectories p.directory).2 = none
  below : ∀ file ∈ p.files, (p.plan file).output.parent = p.directory
  place? : ∀ file ∈ p.files, p.made.place? (p.plan file).output = some (p.place file)
  free : ∀ file ∈ p.files, p.made.get? (p.place file) = none
  distinct : (p.files.map p.place).Nodup

/-- Whether a source is there does not hang on the outputs: no source leads to the planned output of
another, nor does it become a file when the directory for the outputs is made, or cease to be
one. -/
structure SparesSources (p : BatchPlan) : Prop where
  apart : ∀ file ∈ p.files, ∀ other ∈ p.files, other ≠ file →
    p.made.place? file ≠ some (p.place other)
  isFile : ∀ file ∈ p.files, p.made.isFile file = p.tree.isFile file

/-- The first step takes the file on: it has an extension that is taken, and it is there. -/
def IsTakenOn (p : BatchPlan) (file : Path) : Prop :=
  FileJob.checkSource p.context file p.tree = .ok ()

/-- The directory for the outputs has been made, and apart from the planned places everything is as
it was then. -/
structure IsUnderway (p : BatchPlan) (tree : FileTree) : Prop where
  workingDirectory : tree.workingDirectory = p.made.workingDirectory
  elsewhere : ∀ l, (∀ file ∈ p.files, l ≠ p.place file) → tree.get? l = p.made.get? l
  vacant : ∀ file ∈ p.files, tree.get? (p.place file) ≠ some .directory

/-- A tree that the batch can be in: nothing has been done yet, or it is under way. -/
def IsReached (p : BatchPlan) (tree : FileTree) : Prop :=
  tree = p.tree ∨ p.IsUnderway tree

section Trees

variable {p : BatchPlan} {tree : FileTree} {file : Path}

/-! ## The trees of a batch -/

theorem HasNoClash.makeDirectories (hclear : p.HasNoClash) :
    p.tree.makeDirectories p.directory = (p.made, none) := by
  rw [← hclear.directory]
  rfl

theorem extends_made (p : BatchPlan) : p.tree.Extends p.made :=
  FileTree.Extends.step (.refl p.tree) (p.tree.makeDirectories_changesOnlyAt p.directory)
    fun _ hl => absurd hl List.not_mem_nil

theorem HasNoClash.free_tree (hclear : p.HasNoClash) (hfile : file ∈ p.files) :
    p.tree.get? (p.place file) = none :=
  p.extends_made.of_none (hclear.free file hfile)

theorem HasNoClash.ne_of_mem (hclear : p.HasNoClash) {other : Path} (hfile : file ∈ p.files)
    (hother : other ∈ p.files) (hne : other ≠ file) : p.place other ≠ p.place file := fun hplace =>
  hne (List.inj_on_of_nodup_map hclear.distinct hother hfile hplace)

theorem HasNoClash.isUnderway_made (hclear : p.HasNoClash) : p.IsUnderway p.made where
  workingDirectory := rfl
  elsewhere := fun _ _ => rfl
  vacant := fun file hfile => by simp [hclear.free file hfile]

namespace IsUnderway

theorem isReached (hunder : p.IsUnderway tree) : p.IsReached tree :=
  .inr hunder

theorem get?_of_some (hunder : p.IsUnderway tree) (hclear : p.HasNoClash) {l : Location}
    {entry : Entry} (hl : p.made.get? l = some entry) : tree.get? l = some entry := by
  rw [hunder.elsewhere l, hl]
  rintro file hfile rfl
  rw [hclear.free file hfile] at hl
  cases hl

theorem keeps (hunder : p.IsUnderway tree) (hclear : p.HasNoClash) :
    KeepsDirectories p.made tree :=
  ⟨hunder.workingDirectory, fun _ hl => hunder.get?_of_some hclear hl⟩

theorem kept (hunder : p.IsUnderway tree) : KeepsDirectories tree p.made := by
  refine ⟨hunder.workingDirectory.symm, fun l hl => ?_⟩
  rw [← hunder.elsewhere l, hl]
  rintro file hfile rfl
  exact hunder.vacant file hfile hl

theorem leadsToDirectory (hunder : p.IsUnderway tree) (hclear : p.HasNoClash) :
    tree.LeadsToDirectory p.directory :=
  (hunder.keeps hclear).leadsToDirectory
    (FileTree.leadsToDirectory_of_makeDirectories hclear.makeDirectories)

/-- A change at a planned place leaves the batch under way, and the other places as they are. -/
theorem apply (hunder : p.IsUnderway tree) (hfile : file ∈ p.files) (change : OutputChange) :
    p.IsUnderway (change.apply (p.place file) tree) := by
  have hget := change.get?_apply (hunder.vacant file hfile)
  refine ⟨change.workingDirectory_apply.trans hunder.workingDirectory, fun l hl => ?_, ?_⟩
  · rw [hget, if_neg (hl file hfile), hunder.elsewhere l hl]
  · intro other hother
    rw [hget]
    split
    · cases change with
      | keep => exact hunder.vacant file hfile
      | clear => exact nofun
      | put content => simp [OutputChange.entry]
    · exact hunder.vacant other hother

end IsUnderway

/-- Making the directory for the outputs takes every reached tree to one that is under way, and does
not touch the planned places. -/
theorem IsReached.makeDirectories (hreached : p.IsReached tree) (hclear : p.HasNoClash) :
    ∃ above, tree.makeDirectories p.directory = (above, none) ∧ p.IsUnderway above ∧
      ∀ file ∈ p.files, above.get? (p.place file) = tree.get? (p.place file) := by
  rcases hreached with rfl | hunder
  · refine ⟨p.made, hclear.makeDirectories, hclear.isUnderway_made, fun file hfile => ?_⟩
    rw [hclear.free file hfile, hclear.free_tree hfile]
  · exact ⟨tree, (hunder.leadsToDirectory hclear).makeDirectories, hunder, fun _ _ => rfl⟩

/-! ## The source of a job -/

/-- Sources that are all there are spared by the outputs. -/
theorem HasNoClash.sparesSources (hclear : p.HasNoClash)
    (hfiles : ∀ file ∈ p.files, p.tree.isFile file = .ok true) : p.SparesSources where
  apart := fun file hfile other hother _ hplace => by
    obtain ⟨content, hread⟩ := FileTree.isFile_eq_true_iff.1 (hfiles file hfile)
    obtain ⟨l, hl, hcontent⟩ := FileTree.read_eq_ok_iff.1 (p.extends_made.read hread)
    obtain rfl := Option.some.inj (hl.symm.trans hplace)
    rw [hclear.free other hother] at hcontent
    cases hcontent
  isFile := fun file hfile => by
    obtain ⟨content, hread⟩ := FileTree.isFile_eq_true_iff.1 (hfiles file hfile)
    rw [hfiles file hfile]
    exact FileTree.isFile_eq_true_iff.2 ⟨content, p.extends_made.read hread⟩

/-- As long as a file has no output, it is judged the same in every tree of the batch. -/
theorem IsReached.checkSource (hreached : p.IsReached tree) (hclear : p.HasNoClash)
    (hspares : p.SparesSources) (hfile : file ∈ p.files)
    (hfree : tree.get? (p.place file) = none) :
    FileJob.checkSource p.context file tree = FileJob.checkSource p.context file p.tree := by
  rcases hreached with rfl | hunder
  · rfl
  · have hsame : ∀ l, p.made.place? file = some l → tree.get? l = p.made.get? l := by
      intro l hl
      by_cases hplace : l = p.place file
      · rw [hplace, hfree, hclear.free file hfile]
      · refine hunder.elsewhere l fun other hother hne => ?_
        by_cases hotherfile : other = file
        · exact hplace (hotherfile ▸ hne)
        · exact hspares.apart file hfile other hother hotherfile (hne ▸ hl)
    have hstat := FileTree.stat?_congr (hunder.keeps hclear) hunder.kept hsame
    have hisFile : tree.isFile file = p.tree.isFile file := by
      rw [← hspares.isFile file hfile, FileTree.isFile, FileTree.isFile, hstat]
    rw [FileJob.checkSource, FileJob.checkSource, hisFile]

/-- A file that is taken on has a content, which can be read as long as the batch is under way. -/
theorem exists_read (hclear : p.HasNoClash) (htaken : p.IsTakenOn file) :
    ∃ content, ∀ tree, p.IsUnderway tree → tree.read file = .ok content := by
  obtain ⟨content, hread⟩ := FileJob.checkSource_eq_ok htaken
  have hmade := p.extends_made.read hread
  refine ⟨content, fun tree hunder => ?_⟩
  obtain ⟨l, hplace, hcontent⟩ := FileTree.read_eq_ok_iff.1 hmade
  exact FileTree.read_eq_ok_iff.2
    ⟨l, (hunder.keeps hclear).place? hplace, hunder.get?_of_some hclear hcontent⟩

theorem source_job (hclear : p.HasNoClash) (hfile : file ∈ p.files) : (p.job file).source = file :=
  (Plan.ofFile_eq_ok (hclear.planned file hfile)).1

theorem fitFor (hclear : p.HasNoClash) (hfile : file ∈ p.files) (htaken : p.IsTakenOn file) :
    ∃ content, ∀ tree, p.IsUnderway tree → tree.FitFor (p.job file) content (p.place file) := by
  obtain ⟨content, hread⟩ := exists_read hclear htaken
  refine ⟨content, fun tree hunder => ?_⟩
  rw [← source_job hclear hfile] at hread
  have hkeeps := hunder.keeps hclear
  refine
    { source := hread tree hunder
      place? := hkeeps.place? (hclear.place? file hfile)
      above := ?_
      vacant := hunder.vacant file hfile
      apart := fun hplace => ?_ }
  · rw [show (p.job file).output.parent = p.directory from hclear.below file hfile]
    exact hunder.leadsToDirectory hclear
  · -- the source is a file in the tree as made, and nothing stands at the place there
    obtain ⟨l, hl, hcontent⟩ := FileTree.read_eq_ok_iff.1 (hread p.made hclear.isUnderway_made)
    obtain rfl := Option.some.inj ((hkeeps.place? hl).symm.trans hplace)
    rw [hclear.free file hfile] at hcontent
    cases hcontent

end Trees

/-! ## Turns -/

section Turns

variable {p : BatchPlan} {tree : FileTree} {file : Path}

/-- A file is ready for a turn: it is queued and has no output yet, or the batch is under way. -/
def IsReadyFor (p : BatchPlan) (file : Path) (slot : Slot) (tree : FileTree) : Prop :=
  slot = .queued ∧ p.IsReached tree ∧ tree.get? (p.place file) = none ∨
    slot ≠ .queued ∧ p.IsUnderway tree

/-- The first step for a file that is not taken on ends it and leaves the tree. -/
theorem start_of_refused (c : ShowContext) (file : Path) (e : FileJob.PrepareError) :
    ∃ ending : JobEnd, ending.Fails ∧ ∀ tree, FileJob.checkSource c file tree = .error e →
      (FileJob.start c file tree).value = (tree, .ended ending) := by
  have hprepare : ∀ tree, FileJob.checkSource c file tree = .error e →
      (FileJob.prepare c file tree).value = (tree, .error e) := fun tree hcheck => by
    simp [FileJob.prepare, hcheck]
  rcases e with refusal | crash
  · exact ⟨.finished (.refused refusal.message), JobResult.failure_fails _ _ _,
      fun tree hcheck => by simp [FileJob.start, hprepare tree hcheck]⟩
  · exact ⟨.crashed crash, trivial, fun tree hcheck => by
      simp [FileJob.start, hprepare tree hcheck]⟩

/-- The first step for a file that is taken on makes an empty file at its place. -/
theorem start_of_isTakenOn (hclear : p.HasNoClash) (hspares : p.SparesSources)
    (hfile : file ∈ p.files) (htaken : p.IsTakenOn file) (hreached : p.IsReached tree)
    (hfree : tree.get? (p.place file) = none) :
    (FileJob.start p.context file tree).value =
      ((tree.makeDirectories p.directory).1.set (p.place file) (.file ByteArray.empty),
        .waits (p.job file).start.value) := by
  have hplan := hclear.planned file hfile
  have hcheck : FileJob.checkSource p.context file tree = .ok () :=
    (hreached.checkSource hclear hspares hfile hfree).trans htaken
  obtain ⟨hextension, hisFile⟩ := FileJob.checkSource_eq_ok_iff.1 hcheck
  obtain ⟨above, habove, hunder, hsame⟩ := hreached.makeDirectories hclear
  have hreserves : (OutputFile.reserve tree (p.plan file).output).value =
      (above.set (p.place file) (.file ByteArray.empty), .ok (p.plan file).output) := by
    have hplace := (hunder.keeps hclear).place? (hclear.place? file hfile)
    refine OutputFile.reserve_of_free ?_ hplace ?_
    · rw [hclear.below file hfile, habove]
    · rw [hsame file hfile, hfree]
  have htakes : FileJob.TakesOn p.context.settings (p.plan file) tree
      (above.set (p.place file) (.file ByteArray.empty)) (p.plan file).output := by
    refine ⟨?_, ?_, hreserves⟩
    · rwa [(Plan.ofFile_eq_ok hplan).1]
    · rwa [(Plan.ofFile_eq_ok hplan).1]
  simp [FileJob.start, FileJob.prepare_of_takesOn hplan htakes, habove, job]

/-- A file that is not taken on ends with its first turn and leaves the tree. -/
theorem turn_of_refused (h : Helpers) (hclear : p.HasNoClash) (hspares : p.SparesSources)
    (hfile : file ∈ p.files) (htaken : ¬ p.IsTakenOn file) :
    ∃ ending : JobEnd, ending.Fails ∧ ∀ tree, p.IsReached tree →
      tree.get? (p.place file) = none →
        h.turn p.context file (tree, .queued) = (tree, .ended ending) := by
  rcases hcheck : FileJob.checkSource p.context file p.tree with e | _
  · obtain ⟨ending, hfails, hstart⟩ := start_of_refused p.context file e
    refine ⟨ending, hfails, fun tree hreached hfree => ?_⟩
    have hsame := (hreached.checkSource hclear hspares hfile hfree).trans hcheck
    rw [h.turn_queued, hstart tree hsame]
    rfl
  · exact absurd hcheck htaken

/-- **One turn.**  A turn of a file that is taken on makes the directory for the outputs and changes
what stands at the place of the file, in the same way in every tree in which the file is ready. -/
theorem exists_turn (h : Helpers) (hclear : p.HasNoClash) (hspares : p.SparesSources)
    (hfile : file ∈ p.files) (htaken : p.IsTakenOn file) {slot : Slot}
    (hserves : slot.Serves (p.job file)) :
    ∃ (change : OutputChange) (next : Slot), next ≠ .queued ∧ next.Serves (p.job file) ∧
      ∀ tree, p.IsReadyFor file slot tree →
        h.turn p.context file (tree, slot) =
          (change.apply (p.place file) (tree.makeDirectories p.directory).1, next) := by
  have hready : ∀ {tree : FileTree}, slot ≠ .queued → p.IsReadyFor file slot tree →
      p.IsUnderway tree ∧ (tree.makeDirectories p.directory).1 = tree := by
    rintro tree hslot (⟨hqueued, -⟩ | ⟨-, hunder⟩)
    · exact absurd hqueued hslot
    · exact ⟨hunder, by rw [(hunder.leadsToDirectory hclear).makeDirectories]⟩
  obtain _ | ⟨w, answer⟩ | ending := slot
  · refine ⟨.put ByteArray.empty, .waiting (p.job file).start.value none, nofun, rfl, ?_⟩
    rintro tree (⟨-, hreached, hfree⟩ | ⟨hslot, -⟩)
    · rw [h.turn_queued, start_of_isTakenOn hclear hspares hfile htaken hreached hfree]
      rfl
    · exact absurd rfl hslot
  · have hjob : w.job = p.job file := hserves
    obtain ⟨content, hfit⟩ := fitFor hclear hfile htaken
    rw [← hjob] at hfit
    obtain ⟨change, next, hturn⟩ := h.turn_of_waiting p.context file w answer content (p.place file)
    -- what comes of the turn is seen in the tree as made
    have hmade := hturn p.made (hfit p.made hclear.isUnderway_made)
    have hnext : next ≠ .queued ∧ next.Serves w.job := by
      have hplace := (hfit p.made hclear.isUnderway_made).place?
      have hserved := h.turn_serves p.context file answer hplace
      have hstarted := h.turn_ne_queued p.context file (p.made, .waiting w answer)
      rw [hmade] at hserved hstarted
      exact ⟨hstarted, hserved⟩
    refine ⟨change, next, hnext.1, hjob ▸ hnext.2, fun tree hready' => ?_⟩
    obtain ⟨hunder, hthere⟩ := hready nofun hready'
    rw [hthere, hturn tree (hfit tree hunder)]
  · refine ⟨.keep, .ended ending, nofun, hserves, fun tree hready' => ?_⟩
    rw [(hready nofun hready').2, h.turn_ended]
    rfl

end Turns

end BatchPlan

end BroadcastIntake
