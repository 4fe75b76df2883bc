import BroadcastIntake.Proofs.Report.Fresh

/-!
# Reports that are read back

A report that was written from planned files is read back row by row (`read_write_planned`): texts
stay texts, and the numbers, flags and extracted fields that were written as texts get their types
back.

A `PlannedFile` is what a row is made from.  Its row has two forms that differ in how flags and
fields are held, the form in which it is made and the one in which it is read
(`PlannedFile.reread`).  Both have the same record, and that record is read as the second form
(`PlannedFile.read_record`), so a report that has been read can be written again, any number of
times, and stays the same.
-/

namespace BroadcastIntake

/-! ## Members in the order of their keys -/

section Lookup

variable {α : Type}

/-- Where no key occurs twice, looking up finds the members. -/
theorem lookup_eq_some_iff_mem {members : List (String × α)} (hkeys : (members.map Prod.fst).Nodup)
    (key : String) (value : α) : members.lookup key = some value ↔ (key, value) ∈ members := by
  induction members with
  | nil => simp
  | cons member rest ih =>
      obtain ⟨first, old⟩ := member
      rw [List.map_cons, List.nodup_cons] at hkeys
      rw [lookup_cons_ite, List.mem_cons]
      by_cases hfirst : key = first
      · subst hfirst
        have hnot : (key, value) ∉ rest :=
          fun hmem => hkeys.1 (List.mem_map.2 ⟨_, hmem, rfl⟩)
        simp [hnot, eq_comm]
      · rw [if_neg hfirst, ih hkeys.2]
        simp [hfirst]

/-- Looking up does not depend on the order of the members. -/
theorem lookup_of_perm {members others : List (String × α)} (hperm : members.Perm others)
    (hkeys : (members.map Prod.fst).Nodup) (key : String) :
    members.lookup key = others.lookup key := by
  have hothers : (others.map Prod.fst).Nodup := (hperm.map Prod.fst).nodup_iff.1 hkeys
  apply Option.ext
  intro value
  rw [lookup_eq_some_iff_mem hkeys, lookup_eq_some_iff_mem hothers, hperm.mem_iff]

theorem lookup_map_value {β : Type} (f : α → β) (members : List (String × α)) (key : String) :
    (members.map fun member => (member.1, f member.2)).lookup key =
      (members.lookup key).map f := by
  induction members with
  | nil => rfl
  | cons member rest ih =>
      rw [List.map_cons, lookup_cons_ite, lookup_cons_ite, ih]
      split <;> rfl

end Lookup

namespace Json

theorem perm_sortMembers {α : Type} (members : List (String × α)) :
    (sortMembers members).Perm members :=
  List.mergeSort_perm members _

/-- Members in order stay as they are. -/
theorem sortMembers_sortMembers {α : Type} (members : List (String × α)) :
    sortMembers (sortMembers members) = sortMembers members := by
  refine List.mergeSort_of_pairwise (List.pairwise_mergeSort ?_ ?_ members)
  · intro a b c hab hbc
    exact decide_eq_true (String.le_trans (of_decide_eq_true hab) (of_decide_eq_true hbc))
  · intro a b
    rw [Bool.or_eq_true, decide_eq_true_eq, decide_eq_true_eq]
    exact String.le_total a.1 b.1

/-- The text of an object does not depend on whether its members are in order. -/
theorem write_sortMembers (members : List (String × Json)) :
    write (.object (sortMembers members)) = write (.object members) := by
  unfold write writeChars
  rw [sortMembers_writeMembers, sortMembers_writeMembers, sortMembers_sortMembers]

end Json

/-! ## Planned files -/

/-- A file that was planned and probed: what the row of a report is made from. -/
structure PlannedFile where
  plan : Plan
  probe : ProbeInfo
  chain : Option FilterChain
  command : List String
  now : Timestamp
  extraction : ∀ e, plan.extraction = some e → e.IsWritable
  duration : probe.duration.IsDouble

namespace PlannedFile

open ReportRow (columns typedColumns flagColumns flagText cellValue readConfidence readDuration
  readData readFlag planMembers)

/-- The row that a survey makes of the file. -/
def row (f : PlannedFile) : ReportRow :=
  ReportRow.ofPlan f.plan f.probe f.chain f.command f.now

def confidence (f : PlannedFile) : Int :=
  f.plan.extraction.elim 0 (·.confidence)

/-- The fields of the row: those that were extracted, when the name was read. -/
def fields (f : PlannedFile) : Fields :=
  (f.plan.extraction.filter (·.success)).elim [] (·.fields)

/-- The row of the file with flags and fields held in a given form, and with a mark. -/
def rowWith (f : PlannedFile) (flag : Bool → Json) (data : Json) (processed : Bool)
    (date : String) : ReportRow :=
  let values : List Json :=
    [.str f.plan.source.toString, .str f.plan.source.name,
     .str (f.plan.pattern.elim "" (·.pattern.source)),
     flag (f.plan.extraction.any (·.success)), .int f.confidence, data,
     flag f.plan.needsProcessing, .str f.plan.options.format, .str f.plan.output.toString,
     .float f.probe.duration, flag f.probe.isAssumed,
     .str (f.chain.elim "" fun c => String.intercalate "; " c.warnings),
     .str (String.intercalate " " f.command), .str f.now.text, flag processed, .str date]
  { cells := columns.zip values, surplus := none }

theorem row_eq (f : PlannedFile) :
    f.row = f.rowWith (fun flag => .str (flagText flag))
      (.str (Json.object (planMembers f.plan)).write) false "" :=
  rfl

/-- The row of the file as it is read from a report. -/
def reread (f : PlannedFile) (processed : Bool) (date : String) : ReportRow :=
  f.rowWith .bool (.object (Json.sortMembers (planMembers f.plan))) processed date

/-- The record of the file in a report. -/
def record (f : PlannedFile) (processed : Bool) (date : String) : List String :=
  Report.recordOf (f.reread processed date)

variable (f : PlannedFile) (processed : Bool) (date : String)

theorem strangeColumns_reread : (f.reread processed date).strangeColumns = [] :=
  rfl

/-- The record of a row, in whichever form its flags and fields are held. -/
theorem recordOf_rowWith (flag : Bool → Json) (data : Json) :
    Report.recordOf (f.rowWith flag data processed date) =
      [f.plan.source.toString, f.plan.source.name,
       f.plan.pattern.elim "" (·.pattern.source),
       ReportRow.columnText "matched" (flag (f.plan.extraction.any (·.success))),
       intText f.confidence, ReportRow.columnText "extracted_data" data,
       ReportRow.columnText "needs_processing" (flag f.plan.needsProcessing),
       f.plan.options.format, f.plan.output.toString, f.probe.duration.text,
       ReportRow.columnText "probe_fallback" (flag f.probe.isAssumed),
       f.chain.elim "" fun c => String.intercalate "; " c.warnings,
       String.intercalate " " f.command, f.now.text,
       ReportRow.columnText "processed" (flag processed), date] := by
  have hconfidence : ReportRow.columnText "confidence" (.int f.confidence) =
      intText f.confidence := String.ofList_toList
  have hduration : ReportRow.columnText "probed_duration" (.float f.probe.duration) =
      f.probe.duration.text := String.ofList_toList
  rw [← hconfidence, ← hduration]
  rfl

theorem columnText_flag (column : String) (flag : Bool) :
    ReportRow.columnText column (.bool flag) = flagText flag := by
  cases flag <;> rfl

/-- Both forms of the row have the same record. -/
theorem recordOf_row : Report.recordOf f.row = f.record false "" := by
  have hdata : ReportRow.columnText "extracted_data"
      (.object (Json.sortMembers (planMembers f.plan))) =
      (Json.object (planMembers f.plan)).write := Json.write_sortMembers _
  unfold record reread
  rw [row_eq, recordOf_rowWith, recordOf_rowWith, hdata]
  simp only [columnText_flag]
  rfl

theorem nodup_planMembers : ((planMembers f.plan).map Prod.fst).Nodup := by
  have hkeys : (planMembers f.plan).map Prod.fst = f.fields.map Prod.fst := by
    unfold planMembers
    rw [List.map_map]
    rfl
  rw [hkeys]
  unfold fields
  rcases hextraction : f.plan.extraction with _ | e
  · exact List.nodup_nil
  · by_cases hsuccess : e.success = true
    · rw [Option.filter_some_pos hsuccess]
      exact (f.extraction e hextraction).keys
    · rw [Option.filter_some_neg (by simpa using hsuccess)]
      exact List.nodup_nil

theorem readFlag_flagText (flag : Bool) : readFlag (flagText flag) = flag := by
  cases flag <;> decide

/-- A duration has its own text, and so comes back from it. -/
theorem cellValue_duration (f : PlannedFile) :
    cellValue (.float 0) readDuration f.probe.duration.text = .ok (.float f.probe.duration) := by
  have hread := readBinary64_text_of_isDouble f.duration
  have hne : f.probe.duration.text ≠ "" := by
    intro hempty
    rw [hempty] at hread
    cases hread
  unfold cellValue readDuration
  rw [if_neg hne, hread]

theorem cellValue_data (f : PlannedFile) :
    cellValue (.object []) readData (Json.object (planMembers f.plan)).write =
      .ok (.object (Json.sortMembers (planMembers f.plan))) := by
  have hkeys : ((Json.sortMembers (planMembers f.plan)).map Prod.fst).Nodup :=
    ((Json.perm_sortMembers _).map Prod.fst).nodup_iff.2 f.nodup_planMembers
  rw [ReportRow.cellValue_data (ReportRow.isReadBack_of_mem_planMembers f.extraction),
    Json.putAll_of_nodup _ [] hkeys]
  rfl

/-- The record of a file is read as its row. -/
theorem read_record :
    ReportRow.read columns (f.record processed date) = .ok (f.reread processed date) := by
  have hconfidence : (f.reread processed date).text "confidence" = intText f.confidence :=
    String.ofList_toList
  have hduration : (f.reread processed date).text "probed_duration" = f.probe.duration.text :=
    String.ofList_toList
  have hdata : (f.reread processed date).text "extracted_data" =
      (Json.object (planMembers f.plan)).write := Json.write_sortMembers _
  have htypes := ReportRow.withTypes_of_texts
    (fun column hcolumn => ReportRow.get?_ofRecord_columns (f.reread processed date).text
      (ReportRow.mem_columns_of_mem_typedColumns hcolumn))
    (hconfidence ▸ ReportRow.cellValue_confidence (length_confidence_le f.extraction))
    (hduration ▸ f.cellValue_duration) (hdata ▸ f.cellValue_data)
  have hflag : ∀ (column : String) (flag : Bool),
      readFlag (ReportRow.columnText column (.bool flag)) = flag := by
    intro column flag
    rw [columnText_flag, readFlag_flagText]
  refine htypes.trans ?_
  rw [ReportRow.ofRecord_columns]
  -- the four flags are read from their texts, and every other column has its value already
  have hmatched : readFlag ((f.reread processed date).text "matched") =
    f.plan.extraction.any (·.success) := hflag "matched" _
  have hneeded : readFlag ((f.reread processed date).text "needs_processing") =
    f.plan.needsProcessing := hflag "needs_processing" _
  have hassumed : readFlag ((f.reread processed date).text "probe_fallback") =
    f.probe.isAssumed := hflag "probe_fallback" _
  have hprocessed : readFlag ((f.reread processed date).text "processed") = processed :=
    hflag "processed" _
  simp only [ReportRow.withValues, hmatched, hneeded, hassumed, hprocessed]
  rfl

/-- How a row that is read from a report corresponds to the planned file that was written there. -/
structure IsReadAs (f : PlannedFile) (again : ReportRow) : Prop where
  columns : again.cells.map Prod.fst = f.row.cells.map Prod.fst
  surplus : again.surplus = none
  texts : ∀ column ∈ ReportRow.columns, column ∉ typedColumns →
    ∃ text, f.row.get? column = some (.str text) ∧ again.get? column = some (.str text)
  confidence : f.row.get? "confidence" = some (.int f.confidence) ∧
    again.get? "confidence" = some (.int f.confidence)
  duration : f.row.get? "probed_duration" = some (.float f.probe.duration) ∧
    again.get? "probed_duration" = some (.float f.probe.duration)
  data : ∃ members, again.get? "extracted_data" = some (.object members) ∧
    (members.map Prod.fst).Nodup ∧
    ∀ key, members.lookup key = (f.fields.lookup key).map FieldValue.toJson
  flags : ∀ column ∈ flagColumns, ∃ flag, f.row.get? column = some (.str (flagText flag)) ∧
    again.get? column = some (.bool flag)

theorem isReadAs_reread (f : PlannedFile) : f.IsReadAs (f.reread false "") where
  columns := rfl
  surplus := rfl
  texts := by
    intro column hcolumn hplain
    have hmem : column ∈ ReportRow.columns.filter fun name => !typedColumns.contains name :=
      List.mem_filter.2 ⟨hcolumn, by simpa using hplain⟩
    have hnames : (ReportRow.columns.filter fun name => !typedColumns.contains name) =
        ["file_path", "file_name", "pattern", "output_format", "output_path", "warnings",
          "command", "analysis_date", "processing_date"] := by decide
    simp only [hnames, List.mem_cons, List.not_mem_nil, or_false] at hmem
    rcases hmem with rfl | rfl | rfl | rfl | rfl | rfl | rfl | rfl | rfl
    all_goals exact ⟨_, rfl, rfl⟩
  confidence := ⟨rfl, rfl⟩
  duration := ⟨rfl, rfl⟩
  data := by
    refine ⟨_, rfl, ((Json.perm_sortMembers _).map Prod.fst).nodup_iff.2 f.nodup_planMembers, ?_⟩
    intro key
    rw [← lookup_of_perm (Json.perm_sortMembers _).symm f.nodup_planMembers]
    exact lookup_map_value FieldValue.toJson f.fields key
  flags := by
    intro column hcolumn
    simp only [flagColumns, List.mem_cons, List.not_mem_nil, or_false] at hcolumn
    rcases hcolumn with rfl | rfl | rfl | rfl
    all_goals exact ⟨_, rfl, rfl⟩

end PlannedFile

/-! ## Whole reports -/

/-- A row of a report: a planned file and its mark. -/
structure ReportEntry where
  file : PlannedFile
  processed : Bool
  date : String

namespace ReportEntry

/-- The row of a file that is planned and not processed yet. -/
def fresh (file : PlannedFile) : ReportEntry :=
  ⟨file, false, ""⟩

def row (e : ReportEntry) : ReportRow :=
  e.file.reread e.processed e.date

def record (e : ReportEntry) : List String :=
  e.file.record e.processed e.date

/-- The row is that of the entry, as it was planned or as it is read. -/
inductive IsRow : ReportEntry → ReportRow → Prop
  | planned (file : PlannedFile) : IsRow (fresh file) file.row
  | reread (e : ReportEntry) : IsRow e e.row

theorem IsRow.toRecord {e : ReportEntry} {row : ReportRow} (hrow : e.IsRow row) :
    row.toRecord = .ok e.record := by
  refine ReportRow.toRecord_eq_ok_iff.2 ?_
  cases hrow with
  | planned file => exact ⟨rfl, file.recordOf_row.symm⟩
  | reread => exact ⟨e.file.strangeColumns_reread _ _, rfl⟩

end ReportEntry

namespace Report

theorem forall₂_fresh (files : List PlannedFile) :
    List.Forall₂ ReportEntry.IsRow (files.map .fresh) (files.map (·.row)) := by
  rw [List.forall₂_map_left_iff, List.forall₂_map_right_iff, List.forall₂_same]
  exact fun file _ => .planned file

theorem forall₂_reread (entries : List ReportEntry) :
    List.Forall₂ ReportEntry.IsRow entries (entries.map (·.row)) := by
  rw [List.forall₂_map_right_iff, List.forall₂_same]
  exact fun e _ => .reread e

/-- The rows of entries are all written, in whichever form they are. -/
theorem recordsOf_entries {entries : List ReportEntry} {rows : List ReportRow}
    (hrows : List.Forall₂ ReportEntry.IsRow entries rows) :
    recordsOf rows = (entries.map (·.record), none) := by
  induction hrows with
  | nil => rfl
  | cons hrow _ ih =>
      rw [recordsOf, hrow.toRecord, ih]
      rfl

/-- The records of entries are read as their rows, up to the first one with a field that is too
long. -/
theorem readRows_entries (entries : List ReportEntry) :
    readRows ReportRow.columns (Csv.readBack (entries.map (·.record))) =
      if entries.all fun e => Csv.fits e.record then .ok (entries.map (·.row))
      else .error (.csv .fieldTooLong) := by
  induction entries with
  | nil => rfl
  | cons e rest ih =>
      have hread : ReportRow.read ReportRow.columns e.record = .ok e.row :=
        e.file.read_record e.processed e.date
      have hne : e.record ≠ [] := by
        intro hnil
        exact absurd (List.map_eq_nil_iff.1 hnil) (by decide)
      rw [List.map_cons, Csv.readBack, List.all_cons]
      by_cases hfits : Csv.fits e.record = true
      · rw [if_pos hfits, hfits, Bool.true_and, readRows_cons hne, hread, ih]
        split <;> rfl
      · rw [if_neg hfits, Bool.eq_false_iff.2 hfits]
        rfl

/-- A report with the records of some entries is read as their rows, when their fields fit. -/
theorem read_of_entries {tree : FileTree} {path : Path} {entries : List ReportEntry}
    (hreport : tree.read path = .ok (textOf (entries.map (·.record))).toUTF8) :
    read tree path =
      if entries.all fun e => Csv.fits e.record then .ok (entries.map (·.row))
      else .error (.csv .fieldTooLong) := by
  unfold read
  rw [pathExists_of_read hreport, hreport]
  simp only [fromUTF8?_toUTF8]
  rw [ofText_textOf, readRows_entries]

theorem read_entries {tree : FileTree} {path : Path} {entries : List ReportEntry}
    (hfits : ∀ e ∈ entries, Csv.fits e.record = true)
    (hreport : tree.read path = .ok (textOf (entries.map (·.record))).toUTF8) :
    read tree path = .ok (entries.map (·.row)) := by
  rw [read_of_entries hreport, if_pos (List.all_eq_true.2 hfits)]

/-- A report can be made or replaced at the path. -/
def CanReplace (tree : FileTree) (path : Path) : Prop :=
  ∃ made l, tree.makeDirectories path.parent = (made, none) ∧ made.place? path = some l ∧
    made.get? l ≠ some .directory

/-- Where a report can be made, rows without strange columns are written. -/
theorem write_of_canReplace {tree : FileTree} {path : Path} (hplace : CanReplace tree path)
    {rows : List ReportRow} (hne : rows ≠ [])
    (hneeded : ∀ row ∈ rows, (row.get? "needs_processing").isSome = true)
    (hplain : (recordsOf rows).2 = none) :
    ∃ written, (write tree rows path).value = (written, none) := by
  obtain ⟨made, l, hmade, hplace, hnot⟩ := hplace
  have hwrite : made.write path (textOf (recordsOf rows).1).toUTF8 =
      .ok (made.set l (.file (textOf (recordsOf rows).1).toUTF8)) :=
    FileTree.write_eq_ok_iff.2 ⟨l, hplace, hnot, rfl⟩
  refine ⟨made.set l (.file (textOf (recordsOf rows).1).toUTF8), ?_⟩
  rw [write_value hne hneeded, hmade]
  simp only [writeRows, hwrite, hplain]

/-- **Reports** are read back: where a report can be made, the rows of planned files whose fields
fit are written, and reading gives as many rows in the same order, with the same columns, with
texts, numbers and fields unchanged, and with the flags that their texts stand for. -/
theorem read_write_planned {files : List PlannedFile} (hne : files ≠ [])
    (hfits : ∀ f ∈ files, Csv.fits (recordOf f.row) = true) {tree : FileTree} {path : Path}
    (hplace : CanReplace tree path) :
    ∃ written rows, (write tree (files.map (·.row)) path).value = (written, none) ∧
      read written path = .ok rows ∧ List.Forall₂ PlannedFile.IsReadAs files rows := by
  have hrows : files.map (·.row) ≠ [] := by simpa using hne
  have hneeded : ∀ row ∈ files.map (·.row), (row.get? "needs_processing").isSome = true := by
    intro row hrow
    obtain ⟨f, -, rfl⟩ := List.mem_map.1 hrow
    rfl
  have hrecords := recordsOf_entries (forall₂_fresh files)
  obtain ⟨written, hwrite⟩ := write_of_canReplace hplace hrows hneeded (by rw [hrecords])
  have hreport := read_of_write hrows hwrite
  rw [hrecords] at hreport
  have hread : read written path = .ok ((files.map ReportEntry.fresh).map (·.row)) := by
    refine read_entries (fun e he => ?_) hreport
    obtain ⟨f, hf, rfl⟩ := List.mem_map.1 he
    have h := hfits f hf
    rwa [f.recordOf_row] at h
  refine ⟨written, _, hwrite, hread, ?_⟩
  rw [List.map_map, List.forall₂_map_right_iff, List.forall₂_same]
  exact fun f _ => f.isReadAs_reread

/-- A recording whose title has a comma, quotes, a line end and a letter beyond ASCII. -/
def titledRecording : PlannedFile where
  plan :=
    { source := recording
      pattern := none
      extraction := some ⟨true, [("title", .text "\"Für Elise\", live\r\n")], 80⟩
      date := none
      options := .ofShow (.named "Show") none .first
      needsProcessing := false
      output := ⟨0, ["Output", "Show.wav"]⟩ }
  probe := ⟨.ofDecimal false 6225 (-2), none, 1, false⟩
  chain := none
  command := []
  now := ⟨0, false⟩
  extraction := by
    rintro e ⟨⟩
    refine ⟨by decide, ?_, by decide⟩
    intro key n hmem
    cases List.mem_singleton.1 hmem
  duration := by
    dsimp only
    exact Binary64.isDouble_ofDecimal false 6225 (-2)

/-- A report of the recording is read back. -/
theorem titledRecording_reads_back :
    Csv.fits (recordOf titledRecording.row) = true ∧ CanReplace recordingTree surveyPath ∧
      ∃ written rows, (write recordingTree [titledRecording.row] surveyPath).value =
          (written, none) ∧
        read written surveyPath = .ok rows ∧
        List.Forall₂ PlannedFile.IsReadAs [titledRecording] rows := by
  have hfits : Csv.fits (recordOf titledRecording.row) = true := by decide +kernel
  have hplace : CanReplace recordingTree surveyPath := ⟨_, _, rfl, rfl, by decide⟩
  refine ⟨hfits, hplace, read_write_planned (List.cons_ne_nil _ []) ?_ hplace⟩
  intro f hf
  rwa [List.mem_singleton.1 hf]

end Report

end BroadcastIntake
