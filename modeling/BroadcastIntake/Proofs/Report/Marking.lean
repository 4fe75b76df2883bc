import BroadcastIntake.Proofs.Report.RoundTrip
import BroadcastIntake.Proofs.Report.Update

/-!
# What an update leaves alone

An update reads the whole report and writes all of it again, and yet the only bytes that can change
are those of one mark: the cells that say whether the file is processed, and since when
(`update_touches_one_mark`).  Three facts make it so.

* The record of a planned file is the same whether its row is fresh or was read, so every row is
  written as it stood (`recordsOf_entries`).
* The cells of the mark are the last two of a record, so the text of a report is the text before a
  mark, the mark, and the text after it (`textOf_entries`).
* The rows of a report correspond to entries, and an update sets the mark of the first entry for
  its file (`markFirst_entries`).

The theorem is about every report of planned files (`IsReportOf`): one that was written, whatever
updates have come since.  An update of such a report can fail, when a field is too long to be read
again or the directory is gone, and then the report is what it was.
-/

namespace BroadcastIntake

/-! ## The text of a record -/

/-- Fields that follow other fields have a comma before them. -/
theorem Csv.writeFields_append {first second : List String} (hfirst : first ≠ [])
    (hsecond : second ≠ []) :
    writeFields (first ++ second) = writeFields first ++ ',' :: writeFields second := by
  induction first with
  | nil => exact absurd rfl hfirst
  | cons field rest ih =>
      cases rest with
      | nil =>
          obtain ⟨next, others, rfl⟩ := List.exists_cons_of_ne_nil hsecond
          rfl
      | cons next others =>
          have hrest := ih (List.cons_ne_nil next others)
          show writeField field.toList ++ ',' :: writeFields (next :: others ++ second) = _
          rw [hrest]
          simp [writeFields]

namespace PlannedFile

/-- The text by which a report knows the file. -/
def path (f : PlannedFile) : String :=
  f.plan.source.toString

/-- The cells of the record that stand before the mark. -/
def plainCells (f : PlannedFile) : List String :=
  (f.record false "").take (ReportRow.columns.length - 2)

/-- A record ends with its mark. -/
theorem record_eq (f : PlannedFile) (processed : Bool) (date : String) :
    f.record processed date = f.plainCells ++ [ReportRow.flagText processed, date] := by
  unfold plainCells record reread
  rw [recordOf_rowWith, recordOf_rowWith]
  simp only [columnText_flag]
  rfl

theorem plainCells_ne_nil (f : PlannedFile) : f.plainCells ≠ [] := by
  unfold plainCells record reread
  rw [recordOf_rowWith]
  exact List.cons_ne_nil _ _

end PlannedFile

/-- A record as it is written: the cells before the mark, a comma, and the mark. -/
theorem ReportEntry.writeRecord_record (e : ReportEntry) :
    Csv.writeRecord e.record = Csv.writeFields e.file.plainCells ++
      ',' :: Csv.writeFields [ReportRow.flagText e.processed, e.date] ++ ['\r', '\n'] := by
  have hsplit : e.record = e.file.plainCells ++ [ReportRow.flagText e.processed, e.date] :=
    e.file.record_eq e.processed e.date
  have hmany : e.record ≠ [""] := by
    rw [hsplit]
    intro hone
    have hlength := congrArg List.length hone
    simp at hlength
  rw [Csv.writeRecord, if_neg hmany, hsplit,
    Csv.writeFields_append e.file.plainCells_ne_nil (List.cons_ne_nil _ _)]

namespace Report

/-! ## The text around a mark -/

/-- The text of a report from its start to the mark of a file that comes after other entries. -/
def textBefore (earlier : List ReportEntry) (f : PlannedFile) : String :=
  String.ofList ((ReportRow.columns :: earlier.map (·.record)).flatMap Csv.writeRecord ++
    Csv.writeFields f.plainCells ++ [','])

/-- The cells of a mark. -/
def markText (processed : Bool) (date : String) : String :=
  String.ofList (Csv.writeFields [ReportRow.flagText processed, date])

/-- The text of a report from the end of a mark on. -/
def textAfter (later : List ReportEntry) : String :=
  String.ofList ('\r' :: '\n' :: (later.map (·.record)).flatMap Csv.writeRecord)

/-- The text of a report, seen from one of its marks. -/
theorem textOf_entries (earlier later : List ReportEntry) (e : ReportEntry) :
    textOf ((earlier ++ e :: later).map (·.record)) =
      textBefore earlier e.file ++ markText e.processed e.date ++ textAfter later := by
  unfold textOf Csv.write textBefore markText textAfter
  rw [← String.ofList_append, ← String.ofList_append]
  simp [e.writeRecord_record]

/-- The bytes of a report of which one mark is singled out. -/
def bytesWith (earlier : List ReportEntry) (e : ReportEntry) (later : List ReportEntry) :
    ByteArray :=
  (textBefore earlier e.file).toUTF8 ++ (markText e.processed e.date).toUTF8 ++
    (textAfter later).toUTF8

theorem toUTF8_entries (earlier later : List ReportEntry) (e : ReportEntry) :
    (textOf ((earlier ++ e :: later).map (·.record))).toUTF8 = bytesWith earlier e later := by
  simp only [textOf_entries, bytesWith, String.toUTF8_eq_toByteArray, String.toByteArray_append]

/-! ## An update by entries -/

/-- The time of a mark: the one that is given, or the present one. -/
def markTime (date : Option String) (now : Timestamp) : String :=
  (date.filter (· ≠ "")).getD now.text

/-- The entries with the mark of the first one for a file set. -/
def setFirst (file : String) (processed : Bool) (date : String) :
    List ReportEntry → List ReportEntry
  | [] => []
  | e :: rest =>
    if e.file.path = file then ⟨e.file, processed, date⟩ :: rest
    else e :: setFirst file processed date rest

section SetFirst

variable {file : String} {processed : Bool} {date : String} {entries : List ReportEntry}

theorem setFirst_append {earlier : List ReportEntry} (later : List ReportEntry) {e : ReportEntry}
    (hearlier : ∀ other ∈ earlier, other.file.path ≠ file) (he : e.file.path = file) :
    setFirst file processed date (earlier ++ e :: later) =
      earlier ++ ⟨e.file, processed, date⟩ :: later := by
  induction earlier with
  | nil => rw [List.nil_append, setFirst, if_pos he, List.nil_append]
  | cons other rest ih =>
      rw [List.forall_mem_cons] at hearlier
      rw [List.cons_append, setFirst, if_neg hearlier.1, ih hearlier.2, List.cons_append]

theorem map_file_setFirst (file : String) (processed : Bool) (date : String)
    (entries : List ReportEntry) :
    (setFirst file processed date entries).map (·.file) = entries.map (·.file) := by
  induction entries with
  | nil => rfl
  | cons e rest ih =>
      rw [setFirst]
      split
      · rfl
      · rw [List.map_cons, ih, List.map_cons]

theorem isFor_row_iff_path {e : ReportEntry} : IsFor file e.row ↔ e.file.path = file := by
  have hpath : e.row.get? "file_path" = some (.str e.file.path) := rfl
  rw [IsFor, hpath, Option.some_inj, Json.str.injEq]

/-- Of the rows of entries the row of the first entry for a file is marked. -/
theorem markFirst_entries (file : String) (processed : Bool) (date : String)
    (entries : List ReportEntry) :
    markFirst file processed date (entries.map (·.row)) =
      .ok (if ∃ e ∈ entries, e.file.path = file
        then some ((setFirst file processed date entries).map (·.row)) else none) := by
  induction entries with
  | nil => simp [markFirst]
  | cons e rest ih =>
      by_cases he : e.file.path = file
      · rw [List.map_cons, markFirst_cons_of_for _ (isFor_row_iff_path.2 he), setFirst, if_pos he,
          if_pos ⟨e, List.mem_cons_self, he⟩]
        rfl
      · rw [List.map_cons, markFirst_cons_of_not rfl (mt isFor_row_iff_path.1 he), ih, setFirst,
          if_neg he]
        simp only [List.exists_mem_cons_iff, he, false_or]
        split <;> rfl

end SetFirst

/-- The report has the records of the entries. -/
def HasRecords (tree : FileTree) (report : Path) (entries : List ReportEntry) : Prop :=
  tree.read report = .ok (textOf (entries.map (·.record))).toUTF8

/-- Nothing keeps an update from its end: the report can be read, and its directory is there to
write it again. -/
def AllowsUpdate (tree : FileTree) (report : Path) : Prop :=
  (∃ rows, read tree report = .ok rows) ∧ (tree.makeDirectories report.parent).2 = none

section Update

variable {tree : FileTree} {report : Path} {entries : List ReportEntry}

/-- A report that can be read has no field that is too long. -/
theorem HasRecords.fits {rows : List ReportRow} (hrecords : HasRecords tree report entries)
    (hread : read tree report = .ok rows) : ∀ e ∈ entries, Csv.fits e.record = true := by
  rw [read_of_entries hrecords] at hread
  split at hread
  · rename_i hfits
    exact List.all_eq_true.1 hfits
  · cases hread

/-- An update of a report that can be read writes its rows again, with the mark set, when there is
a row for the file. -/
theorem HasRecords.update_value (hrecords : HasRecords tree report entries)
    (hfits : ∀ e ∈ entries, Csv.fits e.record = true) (file : String) (processed : Bool)
    (date : Option String) (now : Timestamp) :
    (update tree report file processed date now).value =
      if ∃ e ∈ entries, e.file.path = file
      then (write tree ((setFirst file processed (markTime date now) entries).map (·.row))
        report).value
      else (tree, none) := by
  have hmark := markFirst_entries file processed (markTime date now) entries
  unfold markTime at hmark ⊢
  rw [update_of_read (read_entries hfits hrecords), hmark]
  by_cases hfile : ∃ e ∈ entries, e.file.path = file
  · simp only [if_pos hfile]
  · simp only [if_neg hfile]

variable {file : String} (processed : Bool) (date : Option String) (now : Timestamp)

/-- Without an entry for the file nothing happens. -/
theorem HasRecords.update_of_forall_ne (hrecords : HasRecords tree report entries)
    (hnone : ∀ e ∈ entries, e.file.path ≠ file) :
    (update tree report file processed date now).value.1 = tree := by
  by_cases hread : ∃ rows, read tree report = .ok rows
  · obtain ⟨rows, hread⟩ := hread
    rw [hrecords.update_value (hrecords.fits hread), if_neg]
    rintro ⟨e, he, hpath⟩
    exact hnone e he hpath
  · exact update_of_not_read (fun rows hrows => hread ⟨rows, hrows⟩) file processed date now

/-- An update that is allowed sets the mark of the first entry for its file. -/
theorem HasRecords.update_of_allowed (hrecords : HasRecords tree report entries)
    (hfile : ∃ e ∈ entries, e.file.path = file) (hallows : AllowsUpdate tree report) :
    ∃ after, (update tree report file processed date now).value = (after, none) ∧
      HasRecords after report (setFirst file processed (markTime date now) entries) := by
  obtain ⟨⟨rows, hread⟩, hdirectory⟩ := hallows
  have hfits := hrecords.fits hread
  have hmark := markFirst_entries file processed (markTime date now) entries
  rw [if_pos hfile] at hmark
  rw [hrecords.update_value hfits, if_pos hfile]
  rcases write_marked (read_entries hfits hrecords) hmark with
    ⟨-, -, hmissing, -⟩ | ⟨after, -, hwrite, hcontent⟩
  · exact absurd hdirectory hmissing
  · rw [recordsOf_entries (forall₂_reread _)] at hwrite hcontent
    exact ⟨after, hwrite, hcontent⟩

/-- An update that is not allowed fails and leaves the report as it was. -/
theorem HasRecords.update_of_not_allowed (hrecords : HasRecords tree report entries)
    (hfile : ∃ e ∈ entries, e.file.path = file) (hallows : ¬ AllowsUpdate tree report) :
    ∃ after e, (update tree report file processed date now).value = (after, some e) ∧
      after.read report = tree.read report := by
  by_cases hfits : ∀ e ∈ entries, Csv.fits e.record = true
  · have hread := read_entries hfits hrecords
    have hmark := markFirst_entries file processed (markTime date now) entries
    rw [if_pos hfile] at hmark
    rw [hrecords.update_value hfits, if_pos hfile]
    rcases write_marked hread hmark with ⟨e, after, -, hwrite, hsame⟩ | ⟨-, hthere, -⟩
    · exact ⟨after, e, hwrite, hsame⟩
    · exact absurd ⟨⟨_, hread⟩, hthere⟩ hallows
  · have hread : read tree report = .error (.csv .fieldTooLong) := by
      rw [read_of_entries hrecords, if_neg fun hall => hfits (List.all_eq_true.1 hall)]
    refine ⟨tree, .csv .fieldTooLong, ?_, rfl⟩
    unfold update
    rw [pathExists_of_read hrecords, hread]
    rfl

/-- Whatever an update does, the report still has records of entries for the same files. -/
theorem HasRecords.exists_after_update (hrecords : HasRecords tree report entries) (file : String) :
    ∃ others, others.map (·.file) = entries.map (·.file) ∧
      HasRecords (update tree report file processed date now).value.1 report others := by
  by_cases hfile : ∃ e ∈ entries, e.file.path = file
  · by_cases hallows : AllowsUpdate tree report
    · obtain ⟨after, hvalue, hafter⟩ :=
        hrecords.update_of_allowed processed date now hfile hallows
      rw [hvalue]
      exact ⟨_, map_file_setFirst file processed (markTime date now) entries, hafter⟩
    · obtain ⟨after, e, hvalue, hsame⟩ :=
        hrecords.update_of_not_allowed processed date now hfile hallows
      rw [hvalue]
      exact ⟨entries, rfl, hsame.trans hrecords⟩
  · rw [hrecords.update_of_forall_ne processed date now fun e he hpath => hfile ⟨e, he, hpath⟩]
    exact ⟨entries, rfl, hrecords⟩

end Update

/-! ## A report through its updates -/

/-- The report is one of the files: their rows were written there, and whatever updates there have
been since, nothing else has changed it. -/
inductive IsReportOf (report : Path) (files : List PlannedFile) : FileTree → Prop
  | written {tree written : FileTree} (hfiles : files ≠ [])
      (hwrite : (write tree (files.map (·.row)) report).value = (written, none)) :
      IsReportOf report files written
  | updated {tree : FileTree} (hreport : IsReportOf report files tree) (file : String)
      (processed : Bool) (date : Option String) (now : Timestamp) :
      IsReportOf report files (update tree report file processed date now).value.1
  | elsewhere {tree after : FileTree} (hreport : IsReportOf report files tree)
      (hsame : after.read report = tree.read report) : IsReportOf report files after

/-- A report of files has the records of entries for these files. -/
theorem IsReportOf.exists_entries {report : Path} {files : List PlannedFile} {tree : FileTree}
    (hreport : IsReportOf report files tree) :
    ∃ entries, entries.map (·.file) = files ∧ HasRecords tree report entries := by
  induction hreport with
  | written hfiles hwrite =>
      have hcontent := read_of_write (fun hnil => hfiles (List.map_eq_nil_iff.1 hnil)) hwrite
      rw [recordsOf_entries (forall₂_fresh files)] at hcontent
      refine ⟨files.map .fresh, ?_, hcontent⟩
      rw [List.map_map]
      exact List.map_id files
  | updated _ file processed date now ih =>
      obtain ⟨entries, hfiles, hrecords⟩ := ih
      obtain ⟨others, hsame, hothers⟩ := hrecords.exists_after_update processed date now file
      exact ⟨others, hsame.trans hfiles, hothers⟩
  | elsewhere _ hsame ih =>
      obtain ⟨entries, hfiles, hrecords⟩ := ih
      exact ⟨entries, hfiles, hsame.trans hrecords⟩

/-! ## One mark -/

/-- **An update touches one mark**: without a row for the file the report stays as it is, and
otherwise nothing but the mark of the first such row changes.  The mark is set if the update is
allowed; if not, the update fails and even the mark stays. -/
theorem update_touches_one_mark {report : Path} {files : List PlannedFile} {tree : FileTree}
    (hreport : IsReportOf report files tree) (file : String) (processed : Bool)
    (date : Option String) (now : Timestamp) :
    ((∀ f ∈ files, f.path ≠ file) →
      (update tree report file processed date now).value.1.read report = tree.read report) ∧
    ∀ before f rest, files = before ++ f :: rest → f.path = file →
      (∀ other ∈ before, other.path ≠ file) →
      ∃ earlier later old, earlier.map (·.file) = before ∧ later.map (·.file) = rest ∧
        old.file = f ∧ tree.read report = .ok (bytesWith earlier old later) ∧
        (AllowsUpdate tree report →
          ∃ after, (update tree report file processed date now).value = (after, none) ∧
            after.read report =
              .ok (bytesWith earlier ⟨f, processed, markTime date now⟩ later)) ∧
        (¬ AllowsUpdate tree report →
          ∃ after e, (update tree report file processed date now).value = (after, some e) ∧
            after.read report = tree.read report) := by
  obtain ⟨entries, rfl, hrecords⟩ := hreport.exists_entries
  constructor
  · intro hnone
    rw [hrecords.update_of_forall_ne processed date now fun e he =>
      hnone e.file (List.mem_map_of_mem he)]
  · intro before f rest hsplit hf hbefore
    obtain ⟨earlier, others, rfl, rfl, hothers⟩ := List.map_eq_append_iff.1 hsplit
    obtain ⟨old, later, rfl, rfl, rfl⟩ := List.map_eq_cons_iff.1 hothers
    have hfile : ∃ e ∈ earlier ++ old :: later, e.file.path = file := ⟨old, by simp, hf⟩
    refine ⟨earlier, later, old, rfl, rfl, rfl, ?_, ?_, ?_⟩
    · rw [← toUTF8_entries]
      exact hrecords
    · intro hallows
      obtain ⟨after, hvalue, hafter⟩ :=
        hrecords.update_of_allowed processed date now hfile hallows
      rw [setFirst_append later (fun other hother =>
        hbefore other.file (List.mem_map_of_mem hother)) hf] at hafter
      refine ⟨after, hvalue, ?_⟩
      rw [← toUTF8_entries]
      exact hafter
    · exact hrecords.update_of_not_allowed processed date now hfile

/-- The report of the recording, before anything is marked in it. -/
def titledTree : FileTree :=
  (write recordingTree [titledRecording.row] surveyPath).value.1

theorem write_titledTree :
    (write recordingTree [titledRecording.row] surveyPath).value = (titledTree, none) := by
  have hplace : CanReplace recordingTree surveyPath := ⟨_, _, rfl, rfl, by decide⟩
  obtain ⟨written, hwrite⟩ := write_of_canReplace hplace (List.cons_ne_nil titledRecording.row [])
    (List.forall_mem_singleton.2 rfl)
    (congrArg Prod.snd (recordsOf_entries (forall₂_fresh [titledRecording])))
  unfold titledTree
  rw [hwrite]

theorem allowsUpdate_titledTree : AllowsUpdate titledTree surveyPath := by
  have hrecords : recordsOf [titledRecording.row] = _ :=
    recordsOf_entries (forall₂_fresh [titledRecording])
  have hcontent := read_of_write (List.cons_ne_nil _ []) write_titledTree
  rw [hrecords] at hcontent
  have hfits : Csv.fits (ReportEntry.fresh titledRecording).record = true := by decide +kernel
  exact ⟨⟨_, read_entries (List.forall_mem_singleton.2 hfits) hcontent⟩, by decide +kernel⟩

/-- The recording is marked in its report, and only its mark changes. -/
theorem titledRecording_mark_is_touched :
    IsReportOf surveyPath [titledRecording] titledTree ∧ AllowsUpdate titledTree surveyPath ∧
      ∃ old after, old.file = titledRecording ∧
        titledTree.read surveyPath = .ok (bytesWith [] old []) ∧
        (update titledTree surveyPath "a.wav" true (some "2024-05-02 12:00:00") ⟨0, false⟩).value =
          (after, none) ∧
        after.read surveyPath =
          .ok (bytesWith [] ⟨titledRecording, true, "2024-05-02 12:00:00"⟩ []) := by
  have hreport : IsReportOf surveyPath [titledRecording] titledTree :=
    .written (List.cons_ne_nil titledRecording []) write_titledTree
  obtain ⟨earlier, later, old, hearlier, hlater, hfile, hcontent, hmarked, -⟩ :=
    (update_touches_one_mark hreport "a.wav" true (some "2024-05-02 12:00:00") ⟨0, false⟩).2
      [] titledRecording [] rfl (by decide +kernel) (by simp)
  rw [List.map_eq_nil_iff.1 hearlier, List.map_eq_nil_iff.1 hlater] at hcontent hmarked
  obtain ⟨after, hvalue, hafter⟩ := hmarked allowsUpdate_titledTree
  exact ⟨hreport, allowsUpdate_titledTree, old, after, hfile, hcontent, hvalue, hafter⟩

end Report

end BroadcastIntake
