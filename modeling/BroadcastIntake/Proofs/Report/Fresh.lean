import BroadcastIntake.Proofs.Report.Left
import BroadcastIntake.Proofs.Report.Planned
import BroadcastIntake.Report.Survey

/-!
# Fresh rows and rows that are read again

The rows of a survey can be used in two ways: as they are, or after they have been written to a
report and read again.  Read again, they leave every planned file that exists.  As they are, they
leave nothing: the flag of a fresh row is the word `False`, and a word counts as yes.
`left_reread_eq_iff` says exactly when the two ways agree all the same.
-/

namespace BroadcastIntake

open Outcome (bind_eq_ok_iff pure_eq_ok_iff)

/-! ## The rows of a survey -/

/-- The row was made from a plan for the file. -/
def ReportRow.IsPlanned (file : Path) (row : ReportRow) : Prop :=
  ∃ (plan : Plan) (probe : ProbeInfo) (chain : Option FilterChain) (command : List String)
    (now : Timestamp), plan.source = file ∧ (∀ e, plan.extraction = some e → e.InRange) ∧
      row = ReportRow.ofPlan plan probe chain command now

namespace Survey

variable {tools : Toolbox} {c : ShowContext} {now : Timestamp}

theorem ofFile_rows {file : Path} {tree : FileTree} {rows : List ReportRow}
    (hsurvey : (ofFile tools c now file tree).value.outcome = some (.ok rows)) :
    ∃ row, rows = [row] ∧ ReportRow.IsPlanned file row := by
  unfold ofFile at hsurvey
  simp only [Logged.value_bind] at hsurvey
  split at hsurvey
  · cases hsurvey
  · rename_i plan hplan
    simp only [Logged.value_bind] at hsurvey
    split at hsurvey
    · cases hsurvey
    · cases hsurvey
    · rename_i probe _ _
      obtain ⟨hsource, hrange⟩ := Plan.ofFile_eq_ok hplan
      obtain rfl := Except.ok.inj (Option.some.inj hsurvey)
      exact ⟨_, rfl, plan, probe, _, _, now, hsource, hrange, rfl⟩

/-- A survey makes a row for every file, in the order of the files. -/
theorem ofFiles_rows (files : List Path) :
    ∀ {tree : FileTree} {rows : List ReportRow},
      (ofFiles tools c now files tree).value.outcome = some (.ok rows) →
        List.Forall₂ ReportRow.IsPlanned files rows := by
  induction files with
  | nil =>
      intro tree rows hsurvey
      obtain rfl := Except.ok.inj (Option.some.inj hsurvey)
      exact .nil
  | cons file rest ih =>
      intro tree rows hsurvey
      unfold ofFiles at hsurvey
      simp only [Logged.value_bind] at hsurvey
      split at hsurvey
      · rename_i first hfirst
        obtain ⟨row, rfl, hrow⟩ := ofFile_rows hfirst
        simp only [Logged.value_bind, Logged.value_pure] at hsurvey
        obtain ⟨others, hothers, hsome⟩ := Option.map_eq_some_iff.1 hsurvey
        rcases others with crash | more
        · cases hsome
        · obtain rfl := Except.ok.inj hsome
          exact .cons hrow (ih hothers)
      · rename_i hfails
        exact absurd hsurvey (hfails rows)

end Survey

namespace Report

/-! ## Fresh rows -/

theorem isMarked_of_planned {file : Path} {row : ReportRow} (hrow : row.IsPlanned file) :
    IsMarked true file row := by
  obtain ⟨plan, probe, chain, command, now, rfl, -, rfl⟩ := hrow
  exact ⟨rfl, rfl⟩

/-- The rows of a survey leave nothing. -/
theorem left_planned {tree : FileTree} {files : List Path} {rows : List ReportRow}
    (hrows : List.Forall₂ ReportRow.IsPlanned files rows) :
    left tree rows = (existing tree files).map fun _ => [] :=
  left_eq (hrows.imp fun _ _ => isMarked_of_planned)

/-! ## Rows that are read again -/

/-- The cells of a row. -/
def recordOf (row : ReportRow) : List String :=
  ReportRow.columns.map row.text

/-- The rows of a survey are all written. -/
theorem recordsOf_planned {files : List Path} {rows : List ReportRow}
    (hrows : List.Forall₂ ReportRow.IsPlanned files rows) :
    recordsOf rows = (rows.map recordOf, none) := by
  induction hrows with
  | nil => rfl
  | cons hrow _ ih =>
      obtain ⟨plan, probe, chain, command, now, -, -, rfl⟩ := hrow
      unfold recordsOf
      rw [ReportRow.toRecord_eq_ok_iff.2 ⟨ReportRow.strangeColumns_ofPlan .., rfl⟩, ih]
      rfl

/-- The record of a planned row is read as a row for the same file that is not marked. -/
theorem read_recordOf {file : Path} {row : ReportRow} (hrow : row.IsPlanned file) :
    ∃ again, ReportRow.read ReportRow.columns (recordOf row) = .ok again ∧
      IsMarked false file again := by
  obtain ⟨plan, probe, chain, command, now, rfl, hrange, rfl⟩ := hrow
  obtain ⟨again, hread, hpath, hprocessed⟩ :=
    ReportRow.read_ofPlan hrange probe chain command now
  refine ⟨again, hread, hpath, ?_⟩
  unfold isProcessed
  rw [hprocessed]
  rfl

theorem readRows_cons {header record : List String} (hne : record ≠ [])
    (records : List (Except Csv.Fault (List String))) :
    readRows header (.ok record :: records) = (do
      let row ← ReportRow.read header record
      return row :: (← readRows header records)) := by
  cases record with
  | nil => exact absurd rfl hne
  | cons field fields => rfl

/-- Records that fit are read again as rows for the same files that are not marked; otherwise the
report cannot be read. -/
theorem readRows_planned {files : List Path} {rows : List ReportRow}
    (hrows : List.Forall₂ ReportRow.IsPlanned files rows) :
    if rows.all fun row => Csv.fits (recordOf row) then
      ∃ again, readRows ReportRow.columns (Csv.readBack (rows.map recordOf)) = .ok again ∧
        List.Forall₂ (IsMarked false) files again
    else
      readRows ReportRow.columns (Csv.readBack (rows.map recordOf)) =
        .error (.csv .fieldTooLong) := by
  induction hrows with
  | nil => exact ⟨[], rfl, .nil⟩
  | @cons file row files rows hrow _ ih =>
      obtain ⟨first, hfirst, hmarked⟩ := read_recordOf hrow
      have hne : recordOf row ≠ [] := by
        intro hnil
        exact absurd (List.map_eq_nil_iff.1 hnil) (by decide)
      rw [List.map_cons, Csv.readBack, List.all_cons]
      by_cases hfits : Csv.fits (recordOf row) = true
      · rw [if_pos hfits, hfits, Bool.true_and, readRows_cons hne, hfirst]
        split at ih
        · rename_i hall
          obtain ⟨again, hagain, hothers⟩ := ih
          rw [if_pos hall, hagain]
          exact ⟨first :: again, rfl, .cons hmarked hothers⟩
        · rename_i hlong
          rw [if_neg hlong, ih]
          rfl
      · rw [if_neg hfits, Bool.eq_false_iff.2 hfits]
        rfl

/-- What a survey's report leaves once it is read again. -/
theorem left_reread {files : List Path} {rows : List ReportRow} {written : FileTree} {path : Path}
    (hrows : List.Forall₂ ReportRow.IsPlanned files rows)
    (hreport : written.read path = .ok (textOf (recordsOf rows).1).toUTF8) (after : FileTree) :
    (read written path >>= left after) =
      if rows.all fun row => Csv.fits (recordOf row) then existing after files
      else .error (.csv .fieldTooLong) := by
  have hread : read written path =
      readRows ReportRow.columns (Csv.readBack (rows.map recordOf)) := by
    unfold read
    rw [pathExists_of_read hreport]
    simp only [hreport, fromUTF8?_toUTF8, ofText_textOf, recordsOf_planned hrows]
  have hagain := readRows_planned hrows
  rw [hread]
  split at hagain
  · rename_i hfits
    obtain ⟨again, hagain, hmarked⟩ := hagain
    rw [if_pos hfits, hagain]
    show left after again = _
    rw [left_eq hmarked]
    cases existing after files <;> rfl
  · rename_i hlong
    rw [if_neg hlong, hagain]
    rfl

/-- **Fresh rows and rows that are read again**: fresh rows never leave anything; rows that are read
again leave the planned files that exist, or fail because a field is too long; and so the two agree
exactly when every field fits and no planned file exists, or looking for one fails. -/
theorem left_reread_eq_iff {tools : Toolbox} {c : ShowContext} {now : Timestamp}
    {files : List Path} {before tree written : FileTree} {rows : List ReportRow} {path : Path}
    (hsurvey : (Survey.ofFiles tools c now files before).value.outcome = some (.ok rows))
    (hne : rows ≠ []) (hwrite : (write tree rows path).value = (written, none))
    (after : FileTree) :
    (∀ found, left after rows = .ok found → found = []) ∧
    ((read written path >>= left after) =
      if rows.all fun row => Csv.fits (recordOf row) then existing after files
      else .error (.csv .fieldTooLong)) ∧
    (left after rows = (read written path >>= left after) ↔
      (∀ row ∈ rows, Csv.fits (recordOf row) = true) ∧
        ((∃ file ∈ files, ∃ e, after.pathExists (Path.ofString file.toString) = .error e) ∨
          ∀ file ∈ files, after.pathExists (Path.ofString file.toString) = .ok false)) := by
  have hrows := Survey.ofFiles_rows files hsurvey
  have hagain := left_reread hrows (read_of_write hne hwrite) after
  refine ⟨?_, hagain, ?_⟩
  · intro found hfound
    rw [left_planned hrows] at hfound
    rcases hexisting : existing after files with e | others
    · rw [hexisting] at hfound
      cases hfound
    · rw [hexisting] at hfound
      exact (Except.ok.inj hfound).symm
  · rw [hagain, left_planned hrows, ← existing_eq_error_iff, ← existing_eq_nil_iff,
      ← List.all_eq_true (p := fun row => Csv.fits (recordOf row))]
    by_cases hfits : (rows.all fun row => Csv.fits (recordOf row)) = true
    · rw [if_pos hfits]
      rcases existing after files with e | others
      · simp [hfits, Except.map]
      · simp [hfits, Except.map, eq_comm]
    · rw [if_neg hfits]
      rcases hexisting : existing after files with e | others
      · obtain ⟨fault, rfl⟩ := existing_error hexisting
        simp [hfits, Except.map]
      · simp [hfits, Except.map]

/-! ## A survey of one recording

No report is there yet, so a recording is surveyed and a report is written.  The recording is left
once the report is read again, and not before. -/

/-- A prober that never answers in time. -/
def silentTools : Toolbox := fun _ => ⟨none, some .timedOut⟩

def recording : Path := ⟨0, ["a.wav"]⟩

/-- A working directory that holds only the recording. -/
def recordingTree : FileTree :=
  ⟨["work"], [(["work"], .directory), (["work", "a.wav"], .file ByteArray.empty)]⟩

def surveyPath : Path := ⟨0, ["plan.csv"]⟩

/-- How the survey of the recording ends. -/
def surveyOutcome : Option (Except Crash (List ReportRow)) :=
  (Survey.ofFiles silentTools (.named "Show") ⟨0, false⟩ [recording] recordingTree).value.outcome

/-- The rows of the survey of the recording. -/
def surveyed : List ReportRow :=
  (surveyOutcome.bind Except.toOption).getD []

/-- The working directory after the rows are written. -/
def surveyedTree : FileTree :=
  (write recordingTree surveyed surveyPath).value.1

theorem surveyOutcome_eq : surveyOutcome = some (.ok surveyed) := by
  have hrun : (surveyOutcome.bind Except.toOption).isSome = true := by decide +kernel
  unfold surveyed
  revert hrun
  rcases surveyOutcome with _ | (_ | rows)
  · exact nofun
  · exact nofun
  · exact fun _ => rfl

theorem surveyed_ne_nil : surveyed ≠ [] := by
  have hrun : surveyed.isEmpty = false := by decide +kernel
  intro hnil
  rw [hnil] at hrun
  cases hrun

theorem write_surveyed :
    (write recordingTree surveyed surveyPath).value = (surveyedTree, none) := by
  have hrun : (write recordingTree surveyed surveyPath).value.2.isNone = true := by decide +kernel
  unfold surveyedTree
  revert hrun
  rcases (write recordingTree surveyed surveyPath).value with ⟨written, _ | e⟩
  · exact fun _ => rfl
  · exact nofun

theorem fits_surveyed : (surveyed.all fun row => Csv.fits (recordOf row)) = true := by
  decide +kernel

theorem existing_recording : existing surveyedTree [recording] = .ok [recording] := by
  have hrun : (existing surveyedTree [recording]).toOption = some [recording] := by decide +kernel
  rcases hfound : existing surveyedTree [recording] with e | found
  · rw [hfound] at hrun
    cases hrun
  · rw [hfound] at hrun
    rw [Option.some.inj hrun]

/-- The survey of the recording leaves nothing, and its report leaves the recording. -/
theorem recording_left_after_reread :
    surveyOutcome = some (.ok surveyed) ∧ surveyed ≠ [] ∧
      (write recordingTree surveyed surveyPath).value = (surveyedTree, none) ∧
      left surveyedTree surveyed ≠ .ok [recording] ∧
      (read surveyedTree surveyPath >>= left surveyedTree) = .ok [recording] := by
  obtain ⟨hfresh, hagain, -⟩ :=
    left_reread_eq_iff surveyOutcome_eq surveyed_ne_nil write_surveyed surveyedTree
  refine ⟨surveyOutcome_eq, surveyed_ne_nil, write_surveyed, ?_, ?_⟩
  · intro hleft
    cases hfresh [recording] hleft
  · rw [hagain, if_pos fits_surveyed, existing_recording]

/-- It is not so that fresh rows and the rows of their report always leave the same files. -/
theorem not_left_fresh_eq_left_reread : ¬ ∀ (tools : Toolbox) (c : ShowContext) (now : Timestamp)
    (files : List Path) (before tree written after : FileTree) (rows : List ReportRow)
    (path : Path), (Survey.ofFiles tools c now files before).value.outcome = some (.ok rows) → rows ≠ [] →
      (write tree rows path).value = (written, none) →
      left after rows = (read written path >>= left after) := by
  intro hsame
  have hrows := Survey.ofFiles_rows [recording] surveyOutcome_eq
  have hleft := hsame _ _ _ _ _ _ _ surveyedTree _ _ surveyOutcome_eq surveyed_ne_nil write_surveyed
  rw [left_reread hrows (read_of_write surveyed_ne_nil write_surveyed), if_pos fits_surveyed,
    left_planned hrows, existing_recording] at hleft
  cases Except.ok.inj hleft

end Report

end BroadcastIntake
