import BroadcastIntake.Proofs.Batch.Completion
import BroadcastIntake.Proofs.Job.Sparing
import BroadcastIntake.Proofs.Report.Entries

/-!
# Runs that keep a report

A run works on files of a report as a batch, and a success is marked in the report as soon as it is
noted.  Notes and the moves of the jobs follow each other in any order, and each note rewrites the
whole report, so that no mark is lost is a matter of three things that every move keeps
(`ReportRun.Sound`):

* the report holds the entries that it had, marked for the successes that have been noted;
* no job writes to the place of the report (`Slot.move_spares`);
* a result that is there stays as it is (`Batch.resultAt_move`).

From one move follows the run (`Sound.moves`).  When all its results have been noted, the report
marks what it marked before and the successes (`IsComplete.hasNoted_iff`).
-/

namespace BroadcastIntake

open FileTree (ChangesOnlyAt)

/-! ## Results stay -/

namespace Batch

variable {b : Batch} {position : Nat} {file : Path} {result : JobResult}

theorem resultAt_eq_some_iff : b.resultAt position = some (file, result) ↔
    ∃ ending, b.slots[position]? = some (file, .ended ending) ∧ resultOf ending = some result := by
  unfold resultAt
  split
  · rename_i source ending hslot
    simp only [hslot, Option.map_eq_some_iff, Prod.mk.injEq, Option.some_inj, Slot.ended.injEq]
    constructor
    · rintro ⟨result', hresult, rfl, rfl⟩
      exact ⟨ending, ⟨rfl, rfl⟩, hresult⟩
    · rintro ⟨ending', ⟨rfl, rfl⟩, hresult⟩
      exact ⟨result, hresult, rfl, rfl⟩
  · rename_i hother
    refine ⟨nofun, ?_⟩
    rintro ⟨ending, hslot, -⟩
    exact absurd hslot (hother file ending)

theorem resultAt_of_slots {other : Batch} (hslots : other.slots = b.slots) :
    other.resultAt = b.resultAt := by
  funext i
  unfold resultAt
  rw [hslots]

/-- A move leaves every result as it is. -/
theorem resultAt_move (hresult : b.resultAt position = some (file, result)) (m : BatchMove) :
    (b.move m).value.resultAt position = some (file, result) := by
  obtain ⟨ending, hended, hending⟩ := resultAt_eq_some_iff.1 hresult
  rcases b.move_cases m with ⟨hsame, -⟩ | ⟨source, slot, hslot, hheld⟩
  · rwa [hsame]
  · refine resultAt_eq_some_iff.2 ⟨ending, ?_, hending⟩
    rw [getElem?_move hslot hheld]
    split
    · rename_i hhere
      rw [← hhere, hended] at hslot
      obtain ⟨rfl, rfl⟩ := Prod.mk.inj (Option.some.inj hslot)
      rw [Slot.move_ended]
    · exact hended

theorem mem_results_iff : (file, result) ∈ b.results ↔
    ∃ position, b.resultAt position = some (file, result) := by
  rw [← filterMap_resultAt, List.mem_filterMap]
  constructor
  · rintro ⟨position, -, hresult⟩
    exact ⟨position, hresult⟩
  · rintro ⟨position, hresult⟩
    obtain ⟨ending, hslot, -⟩ := resultAt_eq_some_iff.1 hresult
    exact ⟨position, List.mem_range.2 (List.getElem?_eq_some_iff.1 hslot).1, hresult⟩

/-- The files with results stand in the order of the batch. -/
theorem map_fst_results_sublist (b : Batch) :
    (b.results.map Prod.fst).Sublist (b.slots.map Prod.fst) := by
  obtain ⟨context, workers, slots, tree⟩ := b
  unfold results
  dsimp only
  induction slots with
  | nil => exact .slnil
  | cons entry rest ih =>
      obtain ⟨source, _ | _ | ending⟩ := entry
      · exact ih.cons source
      · exact ih.cons source
      · rcases hresult : resultOf ending with _ | result
        · simpa [hresult] using ih.cons source
        · simpa [hresult] using ih.cons_cons source

end Batch

/-! ## A run -/

/-- What can happen next in a run on a report. -/
inductive RunMove where
  /-- A job makes a move. -/
  | job (m : BatchMove)
  /-- The result of the file at a position is noted. -/
  | note (position : Nat) (now : Timestamp)
  /-- Something else happens to the file tree, such as a record in a log file. -/
  | other (after : FileTree)

/-- A run on a report under way: the batch, the positions of the files whose results have been
noted, and the first failure to mark one of them. -/
structure ReportRun where
  batch : Batch
  noted : List Nat
  failure : Option ReportError

namespace ReportRun

def begin (context : ShowContext) (workers : Nat) (files : List Path) (tree : FileTree) :
    ReportRun :=
  ⟨.ofFiles context workers files tree, [], none⟩

/-- Notes the result of the file at a position, if it is there and has not been noted: a success is
marked in the report. -/
def note (report : Path) (position : Nat) (now : Timestamp) (r : ReportRun) : ReportRun :=
  match r.batch.resultAt position with
  | none => r
  | some (file, result) =>
    if r.noted.contains position then r
    else if result.success then
      let (tree, failure) :=
        (Report.update r.batch.tree report file.toString true none now).value
      { batch := { r.batch with tree }, noted := r.noted ++ [position]
        failure := r.failure.or failure }
    else { r with noted := r.noted ++ [position] }

def move (report : Path) (r : ReportRun) : RunMove → ReportRun
  | .job m => { r with batch := (r.batch.move m).value }
  | .note position now => r.note report position now
  | .other after => { r with batch := { r.batch with tree := after } }

def moves (report : Path) (r : ReportRun) : List RunMove → ReportRun
  | [] => r
  | m :: rest => (r.move report m).moves report rest

/-- The move keeps to what is its own: nothing but a note touches the report, and the time of a note
fits into a field of it. -/
def Allows (report : Path) (r : ReportRun) : RunMove → Prop
  | .job _ => True
  | .note _ now => now.text.length ≤ Csv.fieldLimit
  | .other after => ∃ places, ChangesOnlyAt places r.batch.tree after ∧
      ∀ l, r.batch.tree.place? report = some l → l ∉ places

/-- Every move of a sequence keeps to what is its own when it is made. -/
def AllowsAll (report : Path) (r : ReportRun) : List RunMove → Prop
  | [] => True
  | m :: rest => r.Allows report m ∧ (r.move report m).AllowsAll report rest

/-- The files that have been processed successfully, in the order of the batch. -/
def successes (r : ReportRun) : List Path :=
  (r.batch.results.filter fun entry => entry.2.success).map Prod.fst

/-- A success for the file has been noted. -/
def HasNoted (r : ReportRun) (file : Path) : Prop :=
  ∃ position ∈ r.noted, ∃ result,
    r.batch.resultAt position = some (file, result) ∧ result.success = true

/-- All results have been noted. -/
def IsComplete (r : ReportRun) : Prop :=
  ∀ position entry, r.batch.resultAt position = some entry → position ∈ r.noted

/-- What holds of a run on a report in the given place that held the given entries. -/
structure Sound (report : Path) (l : Location) (entries : List ReportEntry) (files : List Path)
    (r : ReportRun) : Prop where
  place : r.batch.tree.place? report = some l
  sources : r.batch.slots.map Prod.fst = files
  spares : ∀ entry ∈ r.batch.slots, entry.2.Spares l r.batch.tree
  noted : ∀ position ∈ r.noted, ∃ entry, r.batch.resultAt position = some entry
  failure : r.failure = none
  /-- The report has the entries that it had, marked for what has been noted. -/
  holds : ∃ marked, Report.Holds r.batch.tree report marked ∧
    marked.map (·.file) = entries.map (·.file) ∧
    ∀ file, ReportEntry.marks marked file = true ↔
      ReportEntry.marks entries file = true ∨ r.HasNoted file

variable {report : Path} {l : Location} {entries : List ReportEntry} {files : List Path}
  {r : ReportRun}

theorem mem_successes_iff {file : Path} : file ∈ r.successes ↔
    ∃ position result, r.batch.resultAt position = some (file, result) ∧
      result.success = true := by
  simp only [successes, List.mem_map, List.mem_filter, Prod.exists, exists_and_right,
    exists_eq_right, Batch.mem_results_iff, exists_and_right]
  constructor
  · rintro ⟨result, ⟨position, hresult⟩, hsuccess⟩
    exact ⟨position, result, hresult, hsuccess⟩
  · rintro ⟨position, result, hresult, hsuccess⟩
    exact ⟨result, ⟨position, hresult⟩, hsuccess⟩

/-- When all results have been noted, the successes have. -/
theorem IsComplete.hasNoted_iff (hcomplete : r.IsComplete) (file : Path) :
    r.HasNoted file ↔ file ∈ r.successes := by
  rw [mem_successes_iff]
  constructor
  · rintro ⟨position, -, result, hresult, hsuccess⟩
    exact ⟨position, result, hresult, hsuccess⟩
  · rintro ⟨position, result, hresult, hsuccess⟩
    exact ⟨position, hcomplete position _ hresult, result, hresult, hsuccess⟩

/-- Before anything has happened there is no result. -/
theorem isComplete_begin (context : ShowContext) (workers : Nat) (files : List Path)
    (tree : FileTree) : (begin context workers files tree).IsComplete := by
  rintro position ⟨file, result⟩ hresult
  obtain ⟨ending, hslot, -⟩ := Batch.resultAt_eq_some_iff.1 hresult
  obtain ⟨file', -, hqueued⟩ := List.mem_map.1 (List.mem_of_getElem? hslot)
  cases hqueued

theorem hasNoted_iff_of_resultAt {batch : Batch}
    (hsame : ∀ position ∈ r.noted, batch.resultAt position = r.batch.resultAt position)
    (file : Path) : HasNoted { r with batch } file ↔ r.HasNoted file := by
  refine exists_congr fun position => and_congr_right fun hnoted => ?_
  show (∃ result, batch.resultAt position = _ ∧ _) ↔ _
  rw [hsame position hnoted]

/-! ## Notes -/

/-- Notes leave the jobs alone. -/
@[simp] theorem slots_note (report : Path) (position : Nat) (now : Timestamp) (r : ReportRun) :
    (r.note report position now).batch.slots = r.batch.slots := by
  unfold note
  split
  · rfl
  · split
    · rfl
    · split <;> rfl

@[simp] theorem resultAt_note (report : Path) (position : Nat) (now : Timestamp) (r : ReportRun) :
    (r.note report position now).batch.resultAt = r.batch.resultAt :=
  Batch.resultAt_of_slots (slots_note report position now r)

@[simp] theorem successes_note (report : Path) (position : Nat) (now : Timestamp) (r : ReportRun) :
    (r.note report position now).successes = r.successes := by
  unfold successes Batch.results
  rw [slots_note]

/-- A result that is noted for the first time. -/
theorem note_of_new {position : Nat} {file : Path} {result : JobResult}
    (hresult : r.batch.resultAt position = some (file, result)) (hnew : position ∉ r.noted)
    (report : Path) (now : Timestamp) :
    r.note report position now =
      if result.success then
        let marked := (Report.update r.batch.tree report file.toString true none now).value
        ⟨{ r.batch with tree := marked.1 }, r.noted ++ [position], r.failure.or marked.2⟩
      else { r with noted := r.noted ++ [position] } := by
  simp [note, hresult, hnew]

theorem noted_note_of_new {position : Nat} {file : Path} {result : JobResult}
    (hresult : r.batch.resultAt position = some (file, result)) (hnew : position ∉ r.noted)
    (report : Path) (now : Timestamp) :
    (r.note report position now).noted = r.noted ++ [position] := by
  rw [note_of_new hresult hnew]
  split <;> rfl

theorem mem_noted_note {position : Nat} {entry : Path × JobResult}
    (hresult : r.batch.resultAt position = some entry) (report : Path) (now : Timestamp) :
    position ∈ (r.note report position now).noted := by
  unfold note
  rw [hresult]
  dsimp only
  split
  · rename_i hnoted
    simpa using hnoted
  · split <;> exact List.mem_append_right _ List.mem_cons_self

theorem moves_append (report : Path) (first rest : List RunMove) :
    ∀ r : ReportRun, r.moves report (first ++ rest) = (r.moves report first).moves report rest := by
  induction first with
  | nil => exact fun _ => rfl
  | cons m more ih => exact fun r => ih (r.move report m)

theorem allowsAll_append {first rest : List RunMove} :
    ∀ {r : ReportRun}, r.AllowsAll report (first ++ rest) ↔
      r.AllowsAll report first ∧ (r.moves report first).AllowsAll report rest := by
  induction first with
  | nil => exact fun {r} => (iff_of_eq (true_and _)).symm
  | cons m more ih =>
      intro r
      show r.Allows report m ∧ (r.move report m).AllowsAll report (more ++ rest) ↔ _
      rw [ih, ← and_assoc]
      rfl

/-- A run that ends with a note. -/
theorem moves_note (report : Path) (ms : List RunMove) (position : Nat) (now : Timestamp)
    (r : ReportRun) : r.moves report (ms ++ [.note position now]) =
      (r.moves report ms).note report position now :=
  moves_append report ms _ r

/-! ## One move -/

namespace Sound

theorem file_of_slot (hsound : Sound report l entries files r) {position : Nat} {file : Path}
    {slot : Slot} (hslot : r.batch.slots[position]? = some (file, slot)) : file ∈ files := by
  rw [← hsound.sources]
  exact List.mem_map.2 ⟨_, List.mem_of_getElem? hslot, rfl⟩

theorem exists_content (hsound : Sound report l entries files r) :
    ∃ content, r.batch.tree.get? l = some (.file content) := by
  obtain ⟨marked, hholds, -⟩ := hsound.holds
  obtain ⟨l', hplace, hfile⟩ := FileTree.read_eq_ok_iff.1 hholds.content
  obtain rfl := Option.some.inj (hplace.symm.trans hsound.place)
  exact ⟨_, hfile⟩

/-- What happens elsewhere does not matter. -/
theorem other (hsound : Sound report l entries files r) {after : FileTree}
    {places : List Location} (hframe : ChangesOnlyAt places r.batch.tree after)
    (hl : l ∉ places) :
    Sound report l entries files { r with batch := { r.batch with tree := after } } where
  place := hframe.place? hsound.place
  sources := hsound.sources
  spares := fun entry hentry => (hsound.spares entry hentry).mono hframe.keeps
  noted := hsound.noted
  failure := hsound.failure
  holds := by
    obtain ⟨marked, hholds, hfiles, hmarks⟩ := hsound.holds
    exact ⟨marked, hholds.frame hsound.place hframe hl, hfiles, hmarks⟩

/-- A job that moves leaves the report and all results as they are. -/
theorem job (hsound : Sound report l entries files r) (m : BatchMove) :
    Sound report l entries files { r with batch := (r.batch.move m).value } := by
  have hresults : ∀ position ∈ r.noted,
      (r.batch.move m).value.resultAt position = r.batch.resultAt position := by
    intro position hnoted
    obtain ⟨⟨file, result⟩, hresult⟩ := hsound.noted position hnoted
    rw [Batch.resultAt_move hresult, hresult]
  rcases r.batch.move_cases m with ⟨hsame, -⟩ | ⟨source, slot, hslot, hheld⟩
  · rw [hsame]
    exact hsound
  · -- the report is a file that stands, so the job that moves spares it
    obtain ⟨content, hfile⟩ := hsound.exists_content
    have hmine := hsound.spares _ (List.mem_of_getElem? hslot)
    obtain ⟨⟨places, hframe, hl⟩, hnext⟩ :=
      Slot.move_spares r.batch.context source hfile hmine m.move
    have hmoved := Batch.move_eq hslot hheld
    refine ⟨?_, ?_, ?_, ?_, hsound.failure, ?_⟩
    · rw [hmoved]
      exact hframe.place? hsound.place
    · exact (r.batch.map_fst_slots_move m).trans hsound.sources
    · rw [hmoved]
      intro entry hentry
      rcases List.mem_or_eq_of_mem_set hentry with hother | rfl
      · exact (hsound.spares entry hother).mono hframe.keeps
      · exact hnext
    · intro position hnoted
      obtain ⟨entry, hresult⟩ := hsound.noted position hnoted
      exact ⟨entry, (hresults position hnoted).trans hresult⟩
    · obtain ⟨marked, hholds, hfiles, hmarks⟩ := hsound.holds
      refine ⟨marked, ?_, hfiles, fun file => ?_⟩
      · rw [hmoved]
        exact hholds.frame hsound.place hframe hl
      · rw [hmarks, hasNoted_iff_of_resultAt hresults]

/-- A result that has been noted counts if it is a success. -/
theorem hasNoted_append {position : Nat} {file : Path} {result : JobResult}
    (hresult : r.batch.resultAt position = some (file, result)) (tree : FileTree)
    (failure : Option ReportError) (other : Path) :
    HasNoted ⟨{ r.batch with tree }, r.noted ++ [position], failure⟩ other ↔
      r.HasNoted other ∨ other = file ∧ result.success = true := by
  show (∃ i ∈ r.noted ++ [position], ∃ result,
    r.batch.resultAt i = some (other, result) ∧ result.success = true) ↔ _
  simp only [List.mem_append, List.mem_singleton, or_and_right, exists_or, exists_eq_left, hresult,
    Option.some_inj, Prod.mk.injEq]
  refine or_congr_right ⟨?_, ?_⟩
  · rintro ⟨result', ⟨rfl, rfl⟩, hsuccess⟩
    exact ⟨rfl, hsuccess⟩
  · rintro ⟨rfl, hsuccess⟩
    exact ⟨result, ⟨rfl, rfl⟩, hsuccess⟩

/-- A result that is noted is marked in the report when it is a success. -/
theorem note (hsound : Sound report l entries files r) (hdirect : report.IsDirect)
    (hapart : ReportEntry.AreApart entries) (hfiles : ∀ file ∈ files, file ∈ entries.map (·.source))
    (position : Nat) {now : Timestamp} (hnow : now.text.length ≤ Csv.fieldLimit) :
    Sound report l entries files (r.note report position now) := by
  unfold ReportRun.note
  split
  · exact hsound
  · rename_i file result hresult
    have hnoted : ∀ i ∈ r.noted ++ [position], ∃ entry, r.batch.resultAt i = some entry := by
      intro i hi
      rcases List.mem_append.1 hi with hbefore | hhere
      · exact hsound.noted i hbefore
      · exact ⟨_, List.mem_singleton.1 hhere ▸ hresult⟩
    obtain ⟨marked, hholds, hsame, hmarks⟩ := hsound.holds
    split
    · exact hsound
    · split
      · -- a success: the report is written anew with one more mark
        rename_i hsuccess
        obtain ⟨ending, hslot, -⟩ := Batch.resultAt_eq_some_iff.1 hresult
        have hmem : file ∈ marked.map (·.source) := by
          rw [ReportEntry.map_source_eq hsame]
          exact hfiles file (hsound.file_of_slot hslot)
        obtain ⟨after, hupdate, hframe, hafter⟩ :=
          hholds.update hdirect (hapart.of_map_file hsame) hmem hnow hsound.place
        rw [hupdate]
        refine ⟨hframe.place? hsound.place, hsound.sources,
          fun entry hentry => (hsound.spares entry hentry).mono hframe.keeps, hnoted, ?_,
          _, hafter, (ReportEntry.map_file_markFile _ _ _).trans hsame, fun other => ?_⟩
        · rw [hsound.failure]
          rfl
        · rw [ReportEntry.marks_markFile_iff hmem, hmarks, hasNoted_append hresult, or_assoc]
          simp only [hsuccess, and_true]
      · rename_i hfailed
        refine ⟨hsound.place, hsound.sources, hsound.spares, hnoted, hsound.failure,
          marked, hholds, hsame, fun other => ?_⟩
        rw [hmarks, hasNoted_append hresult]
        simp only [Bool.eq_false_iff.2 hfailed, Bool.false_eq_true, and_false, or_false]

/-- **The step lemma.**  Every move that keeps to its own keeps the report. -/
theorem move (hsound : Sound report l entries files r) (hdirect : report.IsDirect)
    (hapart : ReportEntry.AreApart entries) (hfiles : ∀ file ∈ files, file ∈ entries.map (·.source))
    {m : RunMove} (hallows : r.Allows report m) :
    Sound report l entries files (r.move report m) := by
  cases m with
  | job m => exact hsound.job m
  | note position now => exact hsound.note hdirect hapart hfiles position hallows
  | other after =>
      obtain ⟨places, hframe, hspares⟩ := hallows
      exact hsound.other hframe (hspares l hsound.place)

/-! ## The whole run -/

theorem begin {tree : FileTree} (hholds : Report.Holds tree report entries)
    (hplace : tree.place? report = some l) (context : ShowContext) (workers : Nat)
    (files : List Path) :
    Sound report l entries files (.begin context workers files tree) where
  place := hplace
  sources := by
    show (files.map fun file => (file, Slot.queued)).map Prod.fst = files
    rw [List.map_map]
    exact files.map_id
  spares := by
    intro entry hentry
    obtain ⟨file, -, rfl⟩ := List.mem_map.1 hentry
    trivial
  noted := fun _ hnoted => absurd hnoted List.not_mem_nil
  failure := rfl
  holds := by
    refine ⟨entries, hholds, rfl, fun file => (or_iff_left ?_).symm⟩
    rintro ⟨position, hnoted, -⟩
    exact absurd hnoted List.not_mem_nil

/-- **The run lemma.**  A run keeps the report. -/
theorem moves (hdirect : report.IsDirect) (hapart : ReportEntry.AreApart entries)
    (hfiles : ∀ file ∈ files, file ∈ entries.map (·.source)) (ms : List RunMove) :
    ∀ {r : ReportRun}, Sound report l entries files r → r.AllowsAll report ms →
      Sound report l entries files (r.moves report ms) := by
  induction ms with
  | nil => exact fun hsound _ => hsound
  | cons m rest ih =>
      intro r hsound hallows
      exact ih (hsound.move hdirect hapart hfiles hallows.1) hallows.2

/-- The files that succeed are files of the run, in its order. -/
theorem successes_sublist (hsound : Sound report l entries files r) :
    r.successes.Sublist files := by
  rw [← hsound.sources]
  exact (List.filter_sublist.map Prod.fst).trans r.batch.map_fst_results_sublist

end Sound

end ReportRun

end BroadcastIntake
