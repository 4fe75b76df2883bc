import BroadcastIntake.Proofs.Report.Resume
import BroadcastIntake.Proofs.Session.Frame

/-!
# Sessions that resume from a report

A session that works off a report is a run on it (`Session.exists_visit`), so all that is stated of
runs that follow each other on a report holds of sessions.  The steps of its batch are moves of a
run (`Session.comes_run`): what a tool writes is something that happens elsewhere, as long as no
tool writes to the report.  What follows the results of the batch are notes
(`Session.comes_settleResults`).
-/

namespace BroadcastIntake

/-! ## Moves one after the other -/

namespace ReportRun

/-- The run gets to another state by moves that keep to what is theirs. -/
def Comes (report : Path) (r after : ReportRun) : Prop :=
  ∃ ms, r.AllowsAll report ms ∧ r.moves report ms = after

variable {report : Path} {a b c : ReportRun}

theorem Comes.refl (report : Path) (r : ReportRun) : r.Comes report r :=
  ⟨[], trivial, rfl⟩

theorem Comes.trans (hab : a.Comes report b) (hbc : b.Comes report c) : a.Comes report c := by
  obtain ⟨first, hfirst, rfl⟩ := hab
  obtain ⟨rest, hrest, rfl⟩ := hbc
  exact ⟨first ++ rest, allowsAll_append.2 ⟨hfirst, hrest⟩, moves_append report first rest a⟩

theorem comes_move {m : RunMove} (hallows : a.Allows report m) :
    a.Comes report (a.move report m) :=
  ⟨[m], ⟨hallows, trivial⟩, rfl⟩

end ReportRun

namespace Session

open ReportRun (comes_move)

/-- No tool writes to the report. -/
def ToolsSpare (tools : Toolbox) (report : Path) : Prop :=
  ∀ call, (tools call).writes ≠ none → ∀ (tree : FileTree) l,
    tree.place? call.outputFile = some l → tree.place? report ≠ some l

/-- A batch as a run in which nothing has been noted. -/
def unnoted (b : Batch) : ReportRun :=
  ⟨b, [], none⟩

/-! ## The batch -/

section Running

variable {report : Path} {settings : Settings} {tools : Toolbox}

theorem comes_job (b : Batch) (m : BatchMove) :
    (unnoted b).Comes report (unnoted (b.move m).value) :=
  comes_move (m := .job m) trivial

/-- A tool at work is something that happens elsewhere. -/
theorem comes_tool (hspares : ToolsSpare tools report) (call : ToolCall) (b : Batch) :
    (unnoted b).Comes report
      (unnoted { b with tree := ((tools call).perform call b.tree).1 }) := by
  refine comes_move (m := .other _) ?_
  unfold ToolConduct.perform
  split
  · exact ⟨[], .refl [] b.tree, fun _ _ => List.not_mem_nil⟩
  · rename_i content hwrites
    split
    · rename_i written hwrite
      obtain ⟨l, hplace, -, -⟩ := FileTree.write_eq_ok_iff.1 hwrite
      have hne : (tools call).writes ≠ none := by simp [hwrites]
      refine ⟨[l], (FileTree.write_changesOnlyAt hplace hwrite).1, fun l' hreport hl => ?_⟩
      obtain rfl := List.mem_singleton.1 hl
      exact hspares call hne b.tree l' hplace hreport
    · exact ⟨[], .refl [] b.tree, fun _ _ => List.not_mem_nil⟩

/-- A job that does not wait for a copy waits for a tool. -/
theorem exists_call_of_reply {w : WaitingJob} (hstage : w.stage.isCopying = false)
    (tree : FileTree) :
    ∃ call, ((Surroundings.ofSettings settings tools).reply w tree).value.tree =
      ((tools call).perform call tree).1 := by
  unfold Surroundings.reply
  split
  · refine ⟨(Surroundings.ofSettings settings tools).prober.call w.job.source, ?_⟩
    simp only [Surroundings.replyProbe, Surroundings.probe, Logged.value_bind]
    split <;> rename_i hended <;> exact (congrArg Prod.fst hended).symm
  · rename_i chain _
    let s := Surroundings.ofSettings settings tools
    refine ⟨s.transcoder.call w.job.source w.job.output chain, ?_⟩
    simp only [Surroundings.replyTranscode, Logged.value_bind, Logged.value_pure]
    rfl
  · rename_i hcopying
    rw [hcopying] at hstage
    cases hstage
  · rename_i habandoning
    rw [habandoning] at hstage
    cases hstage

/-- A job that waits for a copy gets what comes of it. -/
theorem reply_of_isCopying {w : WaitingJob} (hstage : w.stage.isCopying = true)
    (tree : FileTree) :
    let copied := (OutputFile.copy tree w.job.source w.job.output).value
    ((Surroundings.ofSettings settings tools).reply w tree).value =
      ⟨copied.1, some (.copied copied.2), []⟩ := by
  intro copied
  unfold Surroundings.reply
  split
  · rename_i hprobing
    rw [hprobing] at hstage
    cases hstage
  · rename_i htranscoding
    rw [htranscoding] at hstage
    cases hstage
  · rfl
  · rfl

/-- A copy that has run to its end is a copy whose answer is there. -/
theorem move_copy {b : Batch} {position : Nat} {source : Path} {w : WaitingJob}
    (hslot : b.slots[position]? = some (source, .waiting w none))
    (hstage : w.stage.isCopying = true) :
    let copied := (OutputFile.copy b.tree w.job.source w.job.output).value
    (b.move ⟨position, .copy⟩).value =
      ({ b with tree := copied.1 }.move ⟨position, .answer (.copied copied.2)⟩).value := by
  intro copied
  have hanswered : ({ b with tree := copied.1 } : Batch).slots[position]? =
      some (source, .waiting w none) := hslot
  rw [Batch.move_eq (m := ⟨position, .copy⟩) hslot rfl,
    Batch.move_eq (m := ⟨position, .answer (.copied copied.2)⟩) hanswered rfl]
  simp [Slot.move, hstage, copied]

/-- One step of a batch that runs is made of moves of a run. -/
theorem comes_advance (hspares : ToolsSpare tools report) (position : Nat) (p : Batch.Progress) :
    (unnoted p.batch).Comes report (unnoted
      (Batch.advance (Surroundings.ofSettings settings tools) position p).value.batch) := by
  unfold Batch.advance
  dsimp only
  split
  · simp only [Logged.value_bind, Logged.value_pure, Batch.Progress.batch_noteEnd]
    exact comes_job p.batch ⟨position, .start⟩
  · rename_i source w hslot
    simp only [Logged.value_bind]
    rcases hstage : w.stage.isCopying with _ | _
    · -- a tool has been at work, and then the job may get its answer
      obtain ⟨call, htree⟩ := exists_call_of_reply hstage p.batch.tree
      have htool := comes_tool hspares call p.batch
      rw [← htree] at htool
      split
      · exact htool
      · rename_i event _
        simp only [Logged.value_bind, Logged.value_pure, Batch.Progress.batch_noteEnd]
        exact htool.trans
          ((comes_job _ ⟨position, .answer event⟩).trans (comes_job _ ⟨position, .goOn⟩))
    · rw [reply_of_isCopying hstage]
      simp only [Logged.value_bind, Logged.value_pure, Batch.Progress.batch_noteEnd]
      rw [← move_copy hslot hstage]
      exact (comes_job p.batch ⟨position, .copy⟩).trans (comes_job _ ⟨position, .goOn⟩)
  · exact .refl report _

theorem comes_advanceToCopy (hspares : ToolsSpare tools report) (position limit : Nat) :
    ∀ p : Batch.Progress, (unnoted p.batch).Comes report (unnoted
      (Batch.advanceToCopy (Surroundings.ofSettings settings tools) position limit
        p).value.batch) := by
  induction limit with
  | zero => exact comes_advance hspares position
  | succ limit ih =>
      intro p
      have hfirst := @comes_advance report settings tools hspares position p
      simp only [Batch.advanceToCopy, Logged.value_bind]
      split
      · exact hfirst.trans (ih _)
      · exact hfirst

theorem comes_advanceAll (hspares : ToolsSpare tools report) (positions : List Nat) :
    ∀ p : Batch.Progress, (unnoted p.batch).Comes report (unnoted
      (Batch.advanceAll (Surroundings.ofSettings settings tools) positions p).value.batch) := by
  induction positions with
  | nil => exact fun p => .refl report _
  | cons position rest ih =>
      intro p
      exact (comes_advanceToCopy hspares position JobRun.stepLimit p).trans (ih _)

theorem comes_runRounds (hspares : ToolsSpare tools report) (rounds : Nat) :
    ∀ p : Batch.Progress, (unnoted p.batch).Comes report (unnoted
      (Batch.runRounds (Surroundings.ofSettings settings tools) rounds p).value.batch) := by
  induction rounds with
  | zero => exact fun p => .refl report _
  | succ rounds ih =>
      intro p
      simp only [Batch.runRounds]
      split
      · exact .refl report _
      · exact (comes_advanceAll hspares _ p).trans (ih _)

/-- The run of a batch is made of moves of a run on the report. -/
theorem comes_run (hspares : ToolsSpare tools report) (b : Batch) :
    (unnoted b).Comes report
      (unnoted (Batch.run (Surroundings.ofSettings settings tools) b).value.batch) :=
  comes_runRounds hspares _ ⟨b, [], []⟩

end Running

/-! ## The notes -/

section Settling

variable {w : World} {report : Path} {s next : SessionState}

/-- What follows a result is a note of it. -/
theorem outcome_settleResult {file : Path} {result : JobResult} (hlog : s.logging.file = none)
    (hrun : outcome (settleResult w (some report) file result) s = (.ok (), next)) :
    next.logging.file = none ∧
      if result.success then
        (Report.update s.tree report file.toString true none w.now).value = (next.tree, none)
      else next.tree = s.tree := by
  unfold settleResult at hrun
  obtain ⟨_, mid, hprint, hrun⟩ := outcome_bind_eq_ok_iff.1 hrun
  obtain ⟨-, rfl⟩ := Prod.mk.inj hprint
  dsimp only at hrun
  split at hrun
  · rename_i hsuccess
    unfold markProcessed at hrun
    obtain ⟨failure, marked, hworking, hrun⟩ := outcome_bind_eq_ok_iff.1 hrun
    rw [outcome_working _ _ (by exact hlog)] at hworking
    obtain ⟨hfailure, rfl⟩ := Prod.mk.inj hworking
    rw [if_pos hsuccess]
    split at hrun
    · obtain ⟨-, rfl⟩ := Prod.mk.inj hrun
      exact ⟨hlog, Prod.ext rfl (Except.ok.inj hfailure)⟩
    · cases (Prod.mk.inj hrun).1
  · rename_i hfailed
    obtain ⟨-, rfl⟩ := Prod.mk.inj hrun
    rw [if_neg hfailed]
    exact ⟨hlog, rfl⟩

/-- The note of a result leaves the tree that follows it in the session. -/
theorem tree_note {r : ReportRun} {position : Nat} {file : Path} {result : JobResult}
    (hresult : r.batch.resultAt position = some (file, result)) (hnew : position ∉ r.noted)
    (htree : r.batch.tree = s.tree) (hlog : s.logging.file = none)
    (hrun : outcome (settleResult w (some report) file result) s = (.ok (), next)) :
    (r.note report position w.now).batch.tree = next.tree := by
  obtain ⟨-, hsettled⟩ := outcome_settleResult hlog hrun
  rw [ReportRun.note_of_new hresult hnew]
  split
  · rename_i hsuccess
    rw [if_pos hsuccess, ← htree] at hsettled
    exact congrArg Prod.fst hsettled
  · rename_i hfailed
    rw [if_neg hfailed] at hsettled
    exact htree.trans hsettled.symm

/-- What follows the results at some positions are notes of them. -/
theorem comes_settleResults (hclock : w.now.text.length ≤ Csv.fieldLimit) (positions : List Nat) :
    ∀ {r : ReportRun} {s next : SessionState}, r.batch.tree = s.tree → s.logging.file = none →
      positions.Nodup → (∀ i ∈ positions, i ∉ r.noted) →
      outcome (settleResults w (some report) (positions.filterMap r.batch.resultAt)) s =
        (.ok (), next) →
      ∃ after, r.Comes report after ∧ after.batch.tree = next.tree ∧
        after.batch.slots = r.batch.slots ∧
        ∀ i entry, r.batch.resultAt i = some entry → i ∈ r.noted ∨ i ∈ positions →
          i ∈ after.noted := by
  induction positions with
  | nil =>
      intro r s next htree _ _ _ hrun
      obtain ⟨-, rfl⟩ := Prod.mk.inj hrun
      exact ⟨r, .refl report r, htree, rfl, fun i _ _ hi => hi.resolve_right List.not_mem_nil⟩
  | cons position rest ih =>
      intro r s next htree hlog hnodup hnew hrun
      obtain ⟨hnot, hnodup⟩ := List.nodup_cons.1 hnodup
      obtain ⟨hposition, hrest⟩ := List.forall_mem_cons.1 hnew
      rcases hresult : r.batch.resultAt position with _ | ⟨file, result⟩
      · -- nothing is there to be noted
        rw [List.filterMap_cons_none hresult] at hrun
        obtain ⟨after, hcomes, hafter, hslots, hnoted⟩ := ih htree hlog hnodup hrest hrun
        refine ⟨after, hcomes, hafter, hslots, fun i entry hi hmem => hnoted i entry hi ?_⟩
        refine hmem.imp_right fun hmem => (List.mem_cons.1 hmem).resolve_left ?_
        rintro rfl
        rw [hresult] at hi
        cases hi
      · -- the result is noted, and then the others are
        rw [List.filterMap_cons_some hresult] at hrun
        obtain ⟨_, mid, hfirst, hrun⟩ := outcome_bind_eq_ok_iff.1 hrun
        have hmidTree := tree_note hresult hposition htree hlog hfirst
        have hmem := ReportRun.noted_note_of_new hresult hposition report w.now
        have hlater : ∀ i ∈ rest, i ∉ (r.note report position w.now).noted := by
          intro i hi
          rw [hmem, List.mem_append, List.mem_singleton, not_or]
          exact ⟨hrest i hi, fun hsame => hnot (hsame ▸ hi)⟩
        rw [← ReportRun.resultAt_note report position w.now r] at hrun
        obtain ⟨after, hcomes, hafter, hslots, hnoted⟩ :=
          ih hmidTree (outcome_settleResult hlog hfirst).1 hnodup hlater hrun
        refine ⟨after, (ReportRun.comes_move (m := .note position w.now) hclock).trans hcomes,
          hafter, hslots.trans (ReportRun.slots_note _ _ _ _), fun i entry hi hmem' => ?_⟩
        refine hnoted i entry (by rw [ReportRun.resultAt_note, hi]) ?_
        rw [hmem, List.mem_append, List.mem_singleton, or_assoc]
        exact hmem'.imp_right List.mem_cons.1

end Settling

/-! ## The session -/

/-- The files of a report are taken up, worked on, and marked. -/
def workOff (w : World) (c : ShowContext) (root report : Path) (limit : Option Int)
    (workers : Int) : Session BatchStats := do
  let files ← applyLimit (← filesFor w c root (some report)) limit
  process w c workers (some report) files

/-- This is what a session does that is asked to use a report. -/
theorem workAt_of_report {w : World} {line : CommandLine} {path : Path} (c : ShowContext)
    (root : Path) (hgathers : line.gatherInto = none) (hreport : line.report = some path)
    (hdry : line.isDryRun = false) :
    workAt w line c root = (do
      let directory := (← tree).workingDirectory
      startCluster w line c.settings
      summarize (← workOff w c root (path.resolve directory) line.limit
        (workersFor line c.settings))) := by
  unfold workAt workOff
  simp only [hgathers, hreport, hdry, Option.map_some, bind_assoc, Bool.false_eq_true, if_false]

section Visiting

variable {w : World} {c : ShowContext} {root report : Path} {limit : Option Int} {workers : Int}
  {s next : SessionState}

/-- The files that are taken up are those of a run on the report. -/
theorem outcome_filesFor {files : List Path} {rows : List ReportRow}
    (hread : Report.read s.tree report = .ok rows)
    (hrun : outcome (filesFor w c root (some report)) s = (.ok files, next)) :
    Report.left s.tree rows = .ok files ∧ next.tree = s.tree ∧ next.logging = s.logging := by
  have hrows : outcome (reportRows w c root report) s = (.ok rows, s) := by
    unfold reportRows
    rw [outcome_bind, outcome_tree]
    dsimp only
    rw [hread]
    rfl
  obtain ⟨_, _, hfirst, hrun⟩ := outcome_bind_eq_ok_iff.1 hrun
  obtain ⟨hsame, rfl⟩ := Prod.mk.inj (hrows.symm.trans hfirst)
  obtain rfl := Except.ok.inj hsame
  obtain ⟨_, _, htree, hrun⟩ := outcome_bind_eq_ok_iff.1 hrun
  obtain ⟨hsame, rfl⟩ := Prod.mk.inj htree
  obtain rfl := Except.ok.inj hsame
  rcases hleft : Report.left s.tree rows with e | left
  · rw [hleft] at hrun
    obtain ⟨_, _, hfails, -⟩ := outcome_bind_eq_ok_iff.1 hrun
    cases (Prod.mk.inj hfails).1
  · rw [hleft] at hrun
    obtain ⟨_, _, hleft, hrun⟩ := outcome_bind_eq_ok_iff.1 hrun
    obtain ⟨hsame, rfl⟩ := Prod.mk.inj hleft
    obtain rfl := Except.ok.inj hsame
    obtain ⟨_, _, hprint, hrun⟩ := outcome_bind_eq_ok_iff.1 hrun
    obtain ⟨-, rfl⟩ := Prod.mk.inj hprint
    obtain ⟨hsame, rfl⟩ := Prod.mk.inj hrun
    exact ⟨congrArg _ (Except.ok.inj hsame), rfl, rfl⟩

theorem outcome_applyLimit {files taken : List Path}
    (hrun : outcome (applyLimit files limit) s = (.ok taken, next)) :
    taken = (limitFiles files limit).1 ∧ next.tree = s.tree ∧ next.logging = s.logging := by
  obtain ⟨_, _, hprint, hrun⟩ := outcome_bind_eq_ok_iff.1 hrun
  obtain ⟨-, rfl⟩ := Prod.mk.inj hprint
  obtain ⟨hsame, rfl⟩ := Prod.mk.inj hrun
  exact ⟨(Except.ok.inj hsame).symm, rfl, rfl⟩

/-- The results that are noted are those of the batch. -/
theorem outcome_runBatch {files : List Path} {results : List (Path × JobResult)} {n : Nat}
    (hlog : s.logging.file = none)
    (hrun : outcome (runBatch w c n files) s = (.ok results, next)) :
    let p := (Batch.run (.ofSettings c.settings w.tools) (.ofFiles c n files s.tree)).value
    results = p.results ∧ next.tree = p.batch.tree ∧ next.logging.file = none := by
  intro p
  unfold runBatch at hrun
  obtain ⟨done, _, hworking, hrun⟩ := outcome_bind_eq_ok_iff.1 hrun
  rw [outcome_working _ _ hlog] at hworking
  obtain ⟨hsame, rfl⟩ := Prod.mk.inj hworking
  obtain rfl : p = done := Except.ok.inj hsame
  obtain ⟨_, _, hcalls, hrun⟩ := outcome_bind_eq_ok_iff.1 hrun
  obtain ⟨-, rfl⟩ := Prod.mk.inj hcalls
  split at hrun
  · obtain ⟨hsame, rfl⟩ := Prod.mk.inj hrun
    exact ⟨(Except.ok.inj hsame).symm, rfl, hlog⟩
  · cases (Prod.mk.inj hrun).1

/-- The batch of a session and what follows its results are a run whose results are all noted. -/
theorem comes_process {files : List Path} {stats : BatchStats} (hspares : ToolsSpare w.tools report)
    (hclock : w.now.text.length ≤ Csv.fieldLimit) (hlog : s.logging.file = none)
    (hrun : outcome (process w c workers (some report) files) s = (.ok stats, next)) :
    ∃ after, (ReportRun.begin c workers.toNat files s.tree).Comes report after ∧
      after.IsComplete ∧ after.batch.tree = next.tree := by
  unfold process at hrun
  split at hrun
  · obtain ⟨-, rfl⟩ := Prod.mk.inj hrun
    exact ⟨_, .refl report _, ReportRun.isComplete_begin c workers.toNat files s.tree, rfl⟩
  · obtain ⟨_, _, hprint, hrun⟩ := outcome_bind_eq_ok_iff.1 hrun
    obtain ⟨-, rfl⟩ := Prod.mk.inj hprint
    obtain ⟨results, worked, hbatch, hrun⟩ := outcome_bind_eq_ok_iff.1 hrun
    obtain ⟨rfl, htree, hworked⟩ := outcome_runBatch (by exact hlog) hbatch
    obtain ⟨_, settled, hsettle, hrun⟩ := outcome_bind_eq_ok_iff.1 hrun
    obtain ⟨-, rfl⟩ := Prod.mk.inj hrun
    let p := (Batch.run (.ofSettings c.settings w.tools)
      (.ofFiles c workers.toNat files s.tree)).value
    obtain ⟨_, hreaches⟩ := Batch.Progress.reaches_run c workers.toNat files s.tree
      (.ofSettings c.settings w.tools)
    have hcourse : p.IsOnCourse workers.toNat files := hreaches.isOnCourse.1
    -- every job that has ended stands in `finished`, so every result is noted
    obtain ⟨after, hcomes, hafter, hslots, hnoted⟩ :=
      comes_settleResults (r := unnoted p.batch) hclock p.finished htree.symm hworked
        hcourse.nodup (fun _ _ => List.not_mem_nil) hsettle
    refine ⟨after, (comes_run hspares _).trans hcomes, ?_, hafter⟩
    rintro position ⟨file, result⟩ hresult
    rw [Batch.resultAt_of_slots hslots] at hresult
    obtain ⟨ending, hended, -⟩ := Batch.resultAt_eq_some_iff.1 hresult
    exact hnoted position _ hresult (.inr ((hcourse.finished position).2 ⟨file, ending, hended⟩))

/-- **A session that works off a report** is a run on it: it takes up the files that the run takes
up, leaves the tree that the run leaves, and notes all results. -/
theorem exists_visit {rows : List ReportRow} {stats : BatchStats} (hlog : s.logging.file = none)
    (hread : Report.read s.tree report = .ok rows) (hspares : ToolsSpare w.tools report)
    (hclock : w.now.text.length ≤ Csv.fieldLimit)
    (hrun : outcome (workOff w c root report limit workers) s = (.ok stats, next)) :
    ∃ v : ReportVisit, v.context = c ∧ v.limit = limit ∧ v.tree = s.tree ∧
      (v.begun report).AllowsAll report v.moves ∧ (v.run report).IsComplete ∧
      v.after report = next.tree := by
  obtain ⟨files, found, hfiles, hrun⟩ := outcome_bind_eq_ok_iff.1 hrun
  obtain ⟨taken, begun, hlimit, hprocess⟩ := outcome_bind_eq_ok_iff.1 hrun
  obtain ⟨hleft, hfound, hfoundLog⟩ := outcome_filesFor hread hfiles
  obtain ⟨rfl, hbegun, hbegunLog⟩ := outcome_applyLimit hlimit
  have htree : begun.tree = s.tree := hbegun.trans hfound
  have hnowhere : begun.logging.file = none := by rw [hbegunLog, hfoundLog, hlog]
  obtain ⟨after, ⟨ms, hallows, hmoves⟩, hcomplete, hafter⟩ :=
    comes_process hspares hclock hnowhere hprocess
  -- the moves of the batch and the notes after it are those of the run
  let v : ReportVisit := ⟨c, workers.toNat, limit, s.tree, ms⟩
  have htaken : v.files report = .ok (limitFiles files limit).1 := by
    unfold ReportVisit.files
    rw [hread]
    show (Report.left s.tree rows >>= _) = _
    rw [hleft]
    rfl
  have hstart := ReportVisit.begun_of_files htaken
  rw [htree] at hallows hmoves
  have hend : v.run report = after := by
    unfold ReportVisit.run
    rw [hstart, hmoves]
  refine ⟨v, rfl, rfl, rfl, ?_, ?_, ?_⟩
  · rwa [hstart]
  · rwa [hend]
  · unfold ReportVisit.after
    rw [hend, hafter]

end Visiting

end Session

end BroadcastIntake
