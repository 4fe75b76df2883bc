import BroadcastIntake.Proofs.Report.Run
import BroadcastIntake.Session.Planning

/-!
# Resuming from a report

Runs that follow each other on a report work off its files: each run finds the report as the one
before it left it, takes up files that are there and not marked, and marks its successes.  So at
the end a file is marked if and only if it was at the start or succeeded in some run, no file is
taken up that is marked already, and no file succeeds twice (`Report.resumes`).

Reports are told apart by the entries that they hold.  One run takes a report from some entries to
others (`ReportVisit.Advances`, `ReportVisit.exists_advances`), and a sequence of runs is an
induction over that (`ReportVisit.exists_final`).

What a report must not have is a field that is longer than a field of a report may be: it would be
written, and never read again (`Report.not_resumes_of_long_field`).
-/

namespace BroadcastIntake

/-! ## A run on what is left -/

/-- A run on a report: the tree in which it finds the report, how many files it is to take up, and
all that happens in it. -/
structure ReportVisit where
  context : ShowContext
  workers : Nat
  limit : Option Int
  tree : FileTree
  moves : List RunMove

namespace ReportVisit

/-- The files that are taken up. -/
def files (v : ReportVisit) (report : Path) : Except ReportError (List Path) := do
  let rows ← Report.read v.tree report
  return (Session.limitFiles (← Report.left v.tree rows) v.limit).1

/-- The run before anything has happened.  When the files of the report cannot be told, there is
nothing to work on. -/
def begun (v : ReportVisit) (report : Path) : ReportRun :=
  match v.files report with
  | .ok files => .begin v.context v.workers files v.tree
  | .error e => { ReportRun.begin v.context v.workers [] v.tree with failure := some e }

def run (v : ReportVisit) (report : Path) : ReportRun :=
  (v.begun report).moves report v.moves

/-- The tree that the run leaves. -/
def after (v : ReportVisit) (report : Path) : FileTree :=
  (v.run report).batch.tree

def successes (v : ReportVisit) (report : Path) : List Path :=
  (v.run report).successes

/-- The run comes to its end, and nothing but its notes touches the report. -/
structure IsOrderly (v : ReportVisit) (report : Path) (files : List Path) : Prop where
  /-- None of the files has a path that is too long to be looked at. -/
  lookups : ∀ file ∈ files, ∃ found, v.tree.pathExists file = .ok found
  allowed : (v.begun report).AllowsAll report v.moves
  complete : (v.run report).IsComplete

/-- Every run finds the report as the one before it left it. -/
def Follow (report : Path) : FileTree → List ReportVisit → Prop
  | _, [] => True
  | tree, v :: rest => v.tree.read report = tree.read report ∧ Follow report (v.after report) rest

/-- The tree after the last run. -/
def lastTree (report : Path) (tree : FileTree) : List ReportVisit → FileTree
  | [] => tree
  | v :: rest => lastTree report (v.after report) rest

end ReportVisit

namespace Report

/-- Those of the files that are there and not marked in the report. -/
def waiting (tree : FileTree) (report : Path) (files : List Path) : List Path :=
  files.filter fun file => tree.isThere file && !marks tree report file

/-- What comes of runs that follow each other on a report of files. -/
structure Resumes (report : Path) (files : List Path) (start : FileTree)
    (visits : List ReportVisit) : Prop where
  succeeds : ∀ v ∈ visits, (v.run report).failure = none
  /-- At the end the report has the rows of the files, in their order. -/
  rows : ∃ rows, read (ReportVisit.lastTree report start visits) report = .ok rows ∧
    rows.map (fun row => row.get? "file_path") = files.map fun file => some (.str file.toString)
  /-- At the end the files are marked that were marked at the start or have succeeded. -/
  marked : ∀ file ∈ files, marks (ReportVisit.lastTree report start visits) report file = true ↔
    marks start report file = true ∨ ∃ v ∈ visits, file ∈ v.successes report
  /-- No file is taken up that is marked already. -/
  unmarked : ∀ v ∈ visits, ∀ taken, v.files report = .ok taken → ∀ file ∈ taken,
    marks v.tree report file = false
  /-- No file succeeds twice. -/
  once : (visits.flatMap (·.successes report)).Nodup
  /-- With a limit, the first of the files that wait are taken up. -/
  first : ∀ v ∈ visits, ∀ n, v.limit = some n → 0 < n →
    v.files report = .ok ((waiting v.tree report files).take n.toNat)
  /-- Without a limit all of them are. -/
  all : ∀ v ∈ visits, (∀ n, v.limit = some n → n ≤ 0) →
    v.files report = .ok (waiting v.tree report files)

end Report

/-! ## One run -/

namespace Session

theorem limitFiles_of_pos {n : Int} (hn : 0 < n) (files : List Path) :
    (limitFiles files (some n)).1 = files.take n.toNat := by
  simp [limitFiles, hn]

theorem limitFiles_of_not_pos {limit : Option Int} (hlimit : ∀ n, limit = some n → n ≤ 0)
    (files : List Path) : (limitFiles files limit).1 = files := by
  unfold limitFiles
  split
  · rename_i n
    rw [if_neg (Int.not_lt.2 (hlimit n rfl))]
  · rfl

theorem limitFiles_sublist (files : List Path) (limit : Option Int) :
    (limitFiles files limit).1.Sublist files := by
  unfold limitFiles
  split
  · split
    · exact List.take_sublist _ files
    · exact .refl files
  · exact .refl files

end Session

namespace ReportVisit

open Report (Holds waiting)
open ReportEntry (AreApart)

variable {v : ReportVisit} {report : Path} {entries : List ReportEntry}

/-- The files that wait, when the entries of the report are known. -/
theorem waiting_eq (hholds : Holds v.tree report entries) (hapart : AreApart entries) :
    waiting v.tree report (entries.map (·.source)) =
      (entries.filter fun e => v.tree.isThere e.source && !e.processed).map (·.source) := by
  unfold waiting
  rw [List.filter_map]
  refine congrArg _ (List.filter_congr fun e he => ?_)
  show (v.tree.isThere e.source && !Report.marks v.tree report e.source) = _
  rw [hholds.marks_eq hapart.proper (hapart.proper e he), hapart.marks_source he]

/-- The first of the files that wait, as many as are asked for. -/
def due (v : ReportVisit) (report : Path) (files : List Path) : List Path :=
  (Session.limitFiles (waiting v.tree report files) v.limit).1

theorem due_sublist (v : ReportVisit) (report : Path) (files : List Path) :
    (v.due report files).Sublist (waiting v.tree report files) :=
  Session.limitFiles_sublist _ _

/-- The run takes the report from some entries to others of the same files. -/
structure Advances (v : ReportVisit) (report : Path) (entries marked : List ReportEntry) :
    Prop where
  files : v.files report = .ok (v.due report (entries.map (·.source)))
  failure : (v.run report).failure = none
  holds : Holds (v.after report) report marked
  same : marked.map (·.file) = entries.map (·.file)
  marks : ∀ file, ReportEntry.marks marked file = true ↔
    ReportEntry.marks entries file = true ∨ file ∈ v.successes report
  successes : (v.successes report).Sublist (v.due report (entries.map (·.source)))

theorem begun_of_files {files : List Path} (hfiles : v.files report = .ok files) :
    v.begun report = .begin v.context v.workers files v.tree := by
  unfold begun
  rw [hfiles]

theorem files_eq (hholds : Holds v.tree report entries) (hapart : AreApart entries)
    (hlookups : ∀ file ∈ entries.map (·.source), ∃ found, v.tree.pathExists file = .ok found) :
    v.files report = .ok (v.due report (entries.map (·.source))) := by
  have hleft := Report.left_rows hapart.proper fun e he =>
    hlookups e.source (List.mem_map_of_mem he)
  unfold files due
  rw [hholds.read, waiting_eq hholds hapart]
  show (Report.left v.tree _ >>= _) = _
  rw [hleft]
  rfl

/-- **One run.**  A report that is found holding entries is left with those of the successes
marked. -/
theorem exists_advances (hholds : Holds v.tree report entries) (hdirect : report.IsDirect)
    (hapart : AreApart entries) (horderly : v.IsOrderly report (entries.map (·.source))) :
    ∃ marked, v.Advances report entries marked := by
  have hfiles := files_eq hholds hapart horderly.lookups
  have hmem : ∀ file ∈ v.due report (entries.map (·.source)), file ∈ entries.map (·.source) :=
    fun file hfile => List.filter_sublist.mem ((v.due_sublist report _).mem hfile)
  have hbegun := begun_of_files hfiles
  obtain ⟨l, hplace, -⟩ := FileTree.read_eq_ok_iff.1 hholds.content
  have hsound := ReportRun.Sound.moves hdirect hapart hmem v.moves
    (.begin hholds hplace v.context v.workers _) (hbegun ▸ horderly.allowed)
  rw [← hbegun] at hsound
  obtain ⟨marked, hmarked, hsame, hmarks⟩ := hsound.holds
  refine ⟨marked, hfiles, hsound.failure, hmarked, hsame, fun file => ?_,
    hsound.successes_sublist⟩
  rw [hmarks]
  exact or_congr_right (horderly.complete.hasNoted_iff file)

namespace Advances

variable {marked : List ReportEntry}

theorem nodup_successes (hadvances : v.Advances report entries marked) (hapart : AreApart entries) :
    (v.successes report).Nodup :=
  ((hadvances.successes.trans (v.due_sublist report _)).trans List.filter_sublist).nodup
    hapart.distinct

/-- What succeeds was not marked before. -/
theorem not_marks_of_success (hadvances : v.Advances report entries marked)
    (hholds : Holds v.tree report entries) (hapart : AreApart entries) {file : Path}
    (hfile : file ∈ v.successes report) : ReportEntry.marks entries file = false := by
  obtain ⟨hmem, hwaits⟩ :=
    List.mem_filter.1 ((v.due_sublist report _).mem (hadvances.successes.mem hfile))
  obtain ⟨e, he, rfl⟩ := List.mem_map.1 hmem
  rw [hholds.marks_eq hapart.proper (hapart.proper e he)] at hwaits
  simp only [Bool.and_eq_true, Bool.not_eq_true'] at hwaits
  exact hwaits.2

end Advances

theorem isComplete_begun (v : ReportVisit) (report : Path) : (v.begun report).IsComplete := by
  unfold begun
  split
  · exact ReportRun.isComplete_begin v.context v.workers _ v.tree
  · exact ReportRun.isComplete_begin v.context v.workers [] v.tree

/-! ## Runs that follow each other -/

/-- What comes of a sequence of runs on a report that holds some entries and in the end holds
others. -/
structure Ends (report : Path) (tree : FileTree) (visits : List ReportVisit)
    (entries final : List ReportEntry) : Prop where
  holds : Holds (lastTree report tree visits) report final
  same : final.map (·.file) = entries.map (·.file)
  marks : ∀ file, ReportEntry.marks final file = true ↔
    ReportEntry.marks entries file = true ∨ ∃ v ∈ visits, file ∈ v.successes report
  once : (visits.flatMap (·.successes report)).Nodup
  unmarked : ∀ v ∈ visits, ∀ file ∈ v.successes report, ReportEntry.marks entries file = false
  visits : ∀ v ∈ visits, (v.run report).failure = none ∧
    v.files report = .ok (v.due report (entries.map (·.source)))

theorem Ends.nil {tree : FileTree} (hholds : Holds tree report entries) :
    Ends report tree [] entries entries := by
  have hnone : ∀ v : ReportVisit, v ∉ [] := fun _ => List.not_mem_nil
  refine ⟨hholds, rfl, fun file => (or_iff_left ?_).symm, List.nodup_nil,
    fun v hv => absurd hv (hnone v), fun v hv => absurd hv (hnone v)⟩
  rintro ⟨v, hv, -⟩
  exact hnone v hv

/-- One run before others. -/
theorem Ends.cons {tree : FileTree} {rest : List ReportVisit} {marked final : List ReportEntry}
    (hfound : Holds v.tree report entries) (hapart : AreApart entries)
    (hadvances : v.Advances report entries marked)
    (hrest : Ends report (v.after report) rest marked final) :
    Ends report tree (v :: rest) entries final := by
  -- a file that succeeds later was not marked by this run, nor before it
  have hlater : ∀ w ∈ rest, ∀ file ∈ w.successes report,
      ReportEntry.marks entries file = false ∧ file ∉ v.successes report := by
    intro w hw file hfile
    have hnot := Bool.eq_false_iff.1 (hrest.unmarked w hw file hfile)
    rw [Ne, hadvances.marks, not_or] at hnot
    exact ⟨Bool.eq_false_iff.2 hnot.1, hnot.2⟩
  refine ⟨hrest.holds, hrest.same.trans hadvances.same, fun file => ?_, ?_, ?_, ?_⟩
  · rw [hrest.marks, hadvances.marks, or_assoc]
    simp only [List.mem_cons, exists_eq_or_imp]
  · rw [List.flatMap_cons, List.nodup_append]
    refine ⟨hadvances.nodup_successes hapart, hrest.once, ?_⟩
    rintro file hhere other hother rfl
    obtain ⟨w, hw, hfile⟩ := List.mem_flatMap.1 hother
    exact (hlater w hw file hfile).2 hhere
  · intro w hw file hfile
    rcases List.mem_cons.1 hw with rfl | hw
    · exact hadvances.not_marks_of_success hfound hapart hfile
    · exact (hlater w hw file hfile).1
  · intro w hw
    rcases List.mem_cons.1 hw with rfl | hw
    · exact ⟨hadvances.failure, hadvances.files⟩
    · exact ReportEntry.map_source_eq hadvances.same ▸ hrest.visits w hw

/-- **Runs that follow each other** on a report that holds entries.  The entries are generalized:
every run finds those that the one before it has left. -/
theorem exists_final (hdirect : report.IsDirect) (visits : List ReportVisit) :
    ∀ {tree : FileTree} {entries : List ReportEntry}, Holds tree report entries →
      AreApart entries → Follow report tree visits →
      (∀ v ∈ visits, v.IsOrderly report (entries.map (·.source))) →
      ∃ final, Ends report tree visits entries final := by
  induction visits with
  | nil => exact fun {tree entries} hholds _ _ _ => ⟨entries, .nil hholds⟩
  | cons v rest ih =>
      intro tree entries hholds hapart hfollow horderly
      have hfound : Holds v.tree report entries := ⟨hfollow.1.trans hholds.content, hholds.fits⟩
      obtain ⟨marked, hadvances⟩ :=
        exists_advances hfound hdirect hapart (horderly v List.mem_cons_self)
      have hsources := ReportEntry.map_source_eq hadvances.same
      obtain ⟨final, hrest⟩ := ih hadvances.holds (hapart.of_map_file hadvances.same) hfollow.2
        fun w hw => hsources ▸ horderly w (List.mem_cons_of_mem v hw)
      exact ⟨final, .cons hfound hapart hadvances hrest⟩

end ReportVisit

namespace ReportEntry

/-- The rows of entries have the paths of their files. -/
theorem map_path_eq {entries : List ReportEntry} {rows : List ReportRow}
    (hrows : List.Forall₂ IsRow entries rows) :
    (rows.map fun row => row.get? "file_path") =
      (entries.map source).map fun path => some (.str path.toString) := by
  induction hrows with
  | nil => rfl
  | cons hrow _ ih =>
      rw [List.map_cons, ih]
      cases hrow <;> rfl

/-- Entries are for different files when their rows have different paths. -/
theorem areApart_of_rows {entries : List ReportEntry} {rows : List ReportRow}
    (hrows : List.Forall₂ IsRow entries rows) (hproper : ∀ e ∈ entries, e.source.IsProper)
    (hdistinct : (rows.map fun row => row.get? "file_path").Nodup) : AreApart entries := by
  rw [map_path_eq hrows] at hdistinct
  exact ⟨hproper, hdistinct.of_map _⟩

end ReportEntry

namespace Report

/-- **Resuming from a report.**  Let a report be written of planned files with different paths whose
fields can be read again, and let runs follow each other on it.  Whatever becomes of their jobs, in
whatever order the results come, and whatever the limits are, the report keeps its rows and marks
in the end the files that it marked at the start and those that succeeded; no run takes up a file
that is marked, so that none succeeds twice; and each run takes up the first of the files that are
there and not marked, as many as its limit allows. -/
theorem resumes {before start : FileTree} {report : Path} {entries : List ReportEntry}
    {rows : List ReportRow} (hrows : List.Forall₂ ReportEntry.IsRow entries rows) (hne : rows ≠ [])
    (hproper : ∀ e ∈ entries, e.source.IsProper)
    (hdistinct : (rows.map fun row => row.get? "file_path").Nodup)
    (hfits : ∀ e ∈ entries, Csv.fits e.record = true) (hdirect : report.IsDirect)
    (hwrite : (write before rows report).value = (start, none)) {visits : List ReportVisit}
    (hfollow : ReportVisit.Follow report start visits)
    (horderly : ∀ v ∈ visits, v.IsOrderly report (entries.map (·.source))) :
    Resumes report (entries.map (·.source)) start visits := by
  have hapart := ReportEntry.areApart_of_rows hrows hproper hdistinct
  have hcontent := read_of_write hne hwrite
  rw [recordsOf_entries hrows] at hcontent
  have hholds : Holds start report entries := ⟨hcontent, hfits⟩
  obtain ⟨final, hends⟩ := ReportVisit.exists_final hdirect visits hholds hapart hfollow horderly
  refine ⟨fun v hv => (hends.visits v hv).1, ⟨_, hends.holds.read, ?_⟩, ?_, ?_, hends.once, ?_, ?_⟩
  · rw [← ReportEntry.map_source_eq hends.same]
    exact ReportEntry.map_path_eq (forall₂_reread final)
  · intro file hfile
    obtain ⟨e, he, rfl⟩ := List.mem_map.1 hfile
    rw [hends.holds.marks_eq (hapart.of_map_file hends.same).proper (hproper e he),
      hholds.marks_eq hproper (hproper e he)]
    exact hends.marks e.source
  · intro v hv taken htaken file hfile
    rw [(hends.visits v hv).2] at htaken
    rw [← Except.ok.inj htaken] at hfile
    have hwaits := (List.mem_filter.1 ((v.due_sublist report _).mem hfile)).2
    simp only [Bool.and_eq_true, Bool.not_eq_true'] at hwaits
    exact hwaits.2
  · intro v hv n hlimit hn
    rw [(hends.visits v hv).2, ReportVisit.due, hlimit, Session.limitFiles_of_pos hn]
  · intro v hv hlimit
    rw [(hends.visits v hv).2, ReportVisit.due, Session.limitFiles_of_not_pos hlimit]

/-! ## A run that copies a recording -/

/-- Where the report of the recording is. -/
def planReport : Path := ⟨1, ["work", "plan.csv"]⟩

/-- The working directory of the recording with a report of it. -/
def planTree : FileTree :=
  (write recordingTree [titledRecording.row] planReport).value.1

/-- The moves of a job that copies its file. -/
def copyMoves : List RunMove :=
  [.job ⟨0, .start⟩, .job ⟨0, .answer (.probed (.ok ⟨60, none, 1, false⟩))⟩, .job ⟨0, .goOn⟩,
    .job ⟨0, .copy⟩, .job ⟨0, .goOn⟩]

/-- A run in which one file is copied and noted. -/
def copyVisit : ReportVisit :=
  ⟨.named "Show", 1, some 1, planTree, copyMoves ++ [.note 0 ⟨0, false⟩]⟩

/-- A run in which nothing happens. -/
def idleVisit (tree : FileTree) : ReportVisit :=
  ⟨.named "Show", 1, none, tree, []⟩

theorem follow_idleVisit (v : ReportVisit) (report : Path) :
    ReportVisit.Follow report v.tree [v, idleVisit (v.after report)] :=
  ⟨rfl, rfl, trivial⟩

theorem pathExists_recording (tree : FileTree) : ∃ found, tree.pathExists recording = .ok found :=
  ⟨_, rfl⟩

theorem isOrderly_idleVisit (tree : FileTree) (report : Path) :
    (idleVisit tree).IsOrderly report [recording] where
  lookups := List.forall_mem_singleton.2 (pathExists_recording tree)
  allowed := trivial
  complete := (idleVisit tree).isComplete_begun report

theorem write_titledRecording :
    (write recordingTree [titledRecording.row] planReport).value = (planTree, none) := by
  have hplace : CanReplace recordingTree planReport := ⟨_, _, rfl, rfl, by decide⟩
  have hneeded : ∀ row ∈ [titledRecording.row], (row.get? "needs_processing").isSome = true := by
    intro row hrow
    rw [List.mem_singleton.1 hrow]
    rfl
  obtain ⟨written, hwrite⟩ := write_of_canReplace hplace (List.cons_ne_nil _ []) hneeded rfl
  rw [planTree, hwrite]

theorem isDirect_planReport : planReport.IsDirect :=
  ⟨rfl, by decide⟩

theorem holds_planTree : Holds planTree planReport [.fresh titledRecording] := by
  refine ⟨?_, List.forall_mem_singleton.2 ?_⟩
  · have hcontent := read_of_write (List.cons_ne_nil _ []) write_titledRecording
    rwa [recordsOf_entries (.cons (.planned titledRecording) .nil)] at hcontent
  · have hfits : Csv.fits (recordOf titledRecording.row) = true := by decide +kernel
    rwa [titledRecording.recordOf_row] at hfits

theorem isProper_recording : recording.IsProper :=
  ⟨by decide, List.forall_mem_singleton.2 ⟨by decide, by decide, by decide⟩⟩

theorem areApart_titledRecording : ReportEntry.AreApart [.fresh titledRecording] where
  proper := List.forall_mem_singleton.2 isProper_recording
  distinct := List.nodup_singleton _

/-- The run takes up the recording. -/
theorem begun_copyVisit :
    copyVisit.begun planReport = .begin (.named "Show") 1 [recording] planTree := by
  have hthere : planTree.isThere recording = true := by decide +kernel
  have hholds : Holds copyVisit.tree planReport [.fresh titledRecording] := holds_planTree
  have hlookups : ∀ file ∈ [ReportEntry.fresh titledRecording].map (·.source),
      ∃ found, copyVisit.tree.pathExists file = .ok found :=
    List.forall_mem_singleton.2 (pathExists_recording _)
  have hwaiting : [ReportEntry.fresh titledRecording].filter (fun e =>
      copyVisit.tree.isThere e.source && !e.processed) = [.fresh titledRecording] :=
    List.filter_cons_of_pos (Bool.and_eq_true_iff.2 ⟨hthere, rfl⟩)
  have hfiles : copyVisit.files planReport = .ok [recording] := by
    rw [ReportVisit.files_eq hholds areApart_titledRecording hlookups, ReportVisit.due,
      ReportVisit.waiting_eq hholds areApart_titledRecording, hwaiting]
    rfl
  exact ReportVisit.begun_of_files hfiles

/-- The run up to its note. -/
def copied : ReportRun :=
  (ReportRun.begin (.named "Show") 1 [recording] planTree).moves planReport copyMoves

theorem run_copyVisit : copyVisit.run planReport = copied.note planReport 0 ⟨0, false⟩ := by
  unfold ReportVisit.run copied
  rw [begun_copyVisit]
  exact ReportRun.moves_note planReport copyMoves 0 ⟨0, false⟩ _

theorem isOrderly_copyVisit : copyVisit.IsOrderly planReport [recording] where
  lookups := List.forall_mem_singleton.2 (pathExists_recording _)
  allowed := by
    have hclock : (Timestamp.mk 0 false).text.length ≤ Csv.fieldLimit := by decide +kernel
    exact ⟨trivial, trivial, trivial, trivial, trivial, hclock, trivial⟩
  complete := by
    intro position entry hresult
    rw [run_copyVisit] at hresult ⊢
    rw [ReportRun.resultAt_note] at hresult
    have hone : copied.batch.slots.length = 1 := by decide +kernel
    obtain ⟨ending, hslot, -⟩ := Batch.resultAt_eq_some_iff.1 hresult
    obtain ⟨hlt, -⟩ := List.getElem?_eq_some_iff.1 hslot
    obtain rfl : position = 0 := by omega
    exact ReportRun.mem_noted_note hresult _ _

/-- A run copies the recording, and the run after it finds nothing to do. -/
theorem titledRecording_is_resumed :
    let visits := [copyVisit, idleVisit (copyVisit.after planReport)]
    (write recordingTree [titledRecording.row] planReport).value = (planTree, none) ∧
      ReportVisit.Follow planReport planTree visits ∧
      (∀ v ∈ visits, v.IsOrderly planReport [recording]) ∧
      Resumes planReport [recording] planTree visits ∧
      copyVisit.successes planReport = [recording] := by
  intro visits
  have hfollow := follow_idleVisit copyVisit planReport
  have horderly : ∀ v ∈ visits, v.IsOrderly planReport [recording] :=
    List.forall_mem_cons.2
      ⟨isOrderly_copyVisit, List.forall_mem_singleton.2 (isOrderly_idleVisit _ _)⟩
  have hrows : List.Forall₂ ReportEntry.IsRow [.fresh titledRecording] [titledRecording.row] :=
    .cons (.planned _) .nil
  refine ⟨write_titledRecording, hfollow, horderly, ?_, ?_⟩
  · exact resumes hrows (List.cons_ne_nil _ []) areApart_titledRecording.proper
      (List.nodup_singleton _) holds_planTree.fits isDirect_planReport write_titledRecording
      hfollow horderly
  · have hcopied : copied.successes = [recording] := by decide +kernel
    unfold ReportVisit.successes
    rw [run_copyVisit, ReportRun.successes_note, hcopied]

/-! ## Fields that are too long -/

/-- The recording with one word as its command. -/
def wordyRecording (word : String) : PlannedFile :=
  { titledRecording with command := [word] }

theorem not_fits_wordyRecording {word : String} (hlong : Csv.fieldLimit < word.length) :
    ¬ Csv.fits (ReportEntry.fresh (wordyRecording word)).record = true := by
  intro hfits
  have hmem : String.intercalate " " [word] ∈ (ReportEntry.fresh (wordyRecording word)).record := by
    unfold ReportEntry.record PlannedFile.record PlannedFile.reread
    rw [PlannedFile.recordOf_rowWith]
    simp [ReportEntry.fresh, wordyRecording]
  have hshort := List.all_eq_true.1 hfits _ hmem
  rw [String.intercalate_singleton, decide_eq_true_eq] at hshort
  omega

/-- A report with a field that is too long is written, and no run can take up anything from it. -/
theorem files_of_long_field {v : ReportVisit} {report : Path} {entries : List ReportEntry}
    (hcontent : v.tree.read report = .ok (textOf (entries.map (·.record))).toUTF8)
    {e : ReportEntry} (he : e ∈ entries) (hlong : ¬ Csv.fits e.record = true) :
    v.files report = .error (.csv .fieldTooLong) := by
  have hall : ¬ (entries.all fun e => Csv.fits e.record) = true :=
    fun hall => hlong (List.all_eq_true.1 hall e he)
  unfold ReportVisit.files
  rw [read_of_entries hcontent, if_neg hall]
  rfl

/-- Not every report that was written is worked off: the fields have to fit. -/
theorem not_resumes_of_long_field : ¬ ∀ (before start : FileTree) (report : Path)
    (entries : List ReportEntry) (rows : List ReportRow) (visits : List ReportVisit),
    List.Forall₂ ReportEntry.IsRow entries rows → rows ≠ [] →
      (∀ e ∈ entries, e.source.IsProper) → (rows.map fun row => row.get? "file_path").Nodup →
      report.IsDirect → (write before rows report).value = (start, none) →
      ReportVisit.Follow report start visits →
      (∀ v ∈ visits, v.IsOrderly report (entries.map (·.source))) →
      Resumes report (entries.map (·.source)) start visits := by
  intro hall
  obtain ⟨word, hlong⟩ : ∃ word : String, Csv.fieldLimit < word.length :=
    ⟨String.ofList (List.replicate (Csv.fieldLimit + 1) 'x'), by
      rw [String.length_ofList, List.length_replicate]
      exact Nat.lt_succ_self _⟩
  have hplace : CanReplace recordingTree planReport := ⟨_, _, rfl, rfl, by decide⟩
  have hneeded : ∀ row ∈ [(wordyRecording word).row],
      (row.get? "needs_processing").isSome = true := by
    intro row hrow
    rw [List.mem_singleton.1 hrow]
    rfl
  have hrows : List.Forall₂ ReportEntry.IsRow [.fresh (wordyRecording word)]
      [(wordyRecording word).row] := .cons (.planned _) .nil
  have hrecords := recordsOf_entries hrows
  obtain ⟨start, hwrite⟩ := write_of_canReplace hplace (List.cons_ne_nil _ []) hneeded
    (congrArg Prod.snd hrecords)
  have hcontent := read_of_write (List.cons_ne_nil _ []) hwrite
  rw [hrecords] at hcontent
  have hfiles := files_of_long_field (v := idleVisit start) hcontent List.mem_cons_self
    (not_fits_wordyRecording hlong)
  have horderly : ∀ v ∈ [idleVisit start], v.IsOrderly planReport [recording] :=
    List.forall_mem_singleton.2 (isOrderly_idleVisit start planReport)
  have hresumes := hall recordingTree start planReport _ _ [idleVisit start] hrows
    (List.cons_ne_nil _ []) (List.forall_mem_singleton.2 isProper_recording)
    (List.nodup_singleton _) isDirect_planReport hwrite ⟨rfl, trivial⟩ horderly
  -- nothing has to happen in the run: what it is to take up cannot be told
  have hfirst := hresumes.all _ List.mem_cons_self nofun
  rw [hfiles] at hfirst
  cases hfirst

end Report

end BroadcastIntake
