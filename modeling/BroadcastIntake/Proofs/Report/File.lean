import BroadcastIntake.Proofs.Csv
import BroadcastIntake.Proofs.FileTree.Frame
import BroadcastIntake.Proofs.Report.Row
import BroadcastIntake.Report.File

/-!
# Reading and writing report files

What each operation on a report does, one description for each.  A report is written in two steps:
directories are made, which touches no file, and then the file is replaced by the records of the
rows.  The records end at the first strange row, but the file is replaced all the same.
-/

namespace BroadcastIntake.Report

open Outcome (bind_eq_ok_iff pure_eq_ok_iff)

/-! ## Reading -/

/-- Every row of a report was read from a record under the header. -/
theorem readRows_eq_ok {header : List String} :
    ∀ {records : List (Except Csv.Fault (List String))} {rows : List ReportRow},
      readRows header records = .ok rows →
        ∀ row ∈ rows, ∃ record, .ok record ∈ records ∧ ReportRow.read header record = .ok row := by
  intro records
  induction records with
  | nil =>
      intro rows hread row hrow
      cases Except.ok.inj hread
      cases hrow
  | cons first rest ih =>
      intro rows hread row hrow
      rcases first with fault | (_ | ⟨field, fields⟩)
      · cases hread
      · -- a blank record is passed over
        obtain ⟨record, hrecord, hfrom⟩ := ih hread row hrow
        exact ⟨record, List.mem_cons_of_mem _ hrecord, hfrom⟩
      · obtain ⟨head, hhead, hread⟩ := bind_eq_ok_iff.1 hread
        obtain ⟨tail, htail, hrows⟩ := bind_eq_ok_iff.1 hread
        cases pure_eq_ok_iff.1 hrows
        rcases List.mem_cons.1 hrow with rfl | hrow
        · exact ⟨_, List.mem_cons_self, hhead⟩
        · obtain ⟨record, hrecord, hfrom⟩ := ih htail row hrow
          exact ⟨record, List.mem_cons_of_mem _ hrecord, hfrom⟩

theorem ofText_of_read {text : String} {header : List String}
    {records : List (Except Csv.Fault (List String))}
    (hread : Csv.read text = .ok header :: records) : ofText text = readRows header records := by
  unfold ofText
  rw [hread]

/-- The rows of a text stand under one header. -/
theorem ofText_eq_ok {text : String} {rows : List ReportRow} (hread : ofText text = .ok rows) :
    ∃ header, ∀ row ∈ rows, ReportRow.IsReadUnder header row := by
  unfold ofText at hread
  split at hread
  · cases Except.ok.inj hread
    exact ⟨[], fun row hrow => by cases hrow⟩
  · cases hread
  · rename_i header records _
    refine ⟨header, fun row hrow => ?_⟩
    obtain ⟨record, -, hfrom⟩ := readRows_eq_ok hread row hrow
    exact ReportRow.isReadUnder_of_read hfrom

theorem pathExists_of_read {tree : FileTree} {path : Path} {content : ByteArray}
    (hread : tree.read path = .ok content) : tree.pathExists path = .ok true := by
  obtain ⟨l, hplace, hfile⟩ := FileTree.read_eq_ok_iff.1 hread
  simp [FileTree.pathExists, FileTree.stat?, FileTree.locate_of_place hplace, hfile, Except.map]

theorem read_eq_ok_iff {tree : FileTree} {path : Path} {rows : List ReportRow} :
    read tree path = .ok rows ↔ ∃ content text, tree.read path = .ok content ∧
      String.fromUTF8? content = some text ∧ ofText text = .ok rows := by
  constructor
  · intro hread
    unfold read at hread
    split at hread
    · cases hread
    · cases hread
    · split at hread
      · cases hread
      · rename_i content hcontent
        split at hread
        · cases hread
        · rename_i text htext
          exact ⟨content, text, hcontent, htext, hread⟩
  · rintro ⟨content, text, hcontent, htext, hrows⟩
    simp [read, pathExists_of_read hcontent, hcontent, htext, hrows]

/-! ## Writing -/

/-- The report that records make is read under the columns of a report. -/
theorem ofText_textOf (records : List (List String)) :
    ofText (textOf records) = readRows ReportRow.columns (Csv.readBack records) := by
  have hheader : Csv.fits ReportRow.columns = true := by decide
  refine ofText_of_read ?_
  rw [textOf, Csv.read_write, Csv.readBack, if_pos hheader]

/-- The files that need processing are counted when every row says whether it is one. -/
theorem countNeeded_eq_ok {rows : List ReportRow}
    (hneeded : ∀ row ∈ rows, (row.get? "needs_processing").isSome = true) :
    ∃ n, countNeeded rows = .ok n := by
  induction rows with
  | nil => exact ⟨0, rfl⟩
  | cons row rest ih =>
      obtain ⟨value, hvalue⟩ := Option.isSome_iff_exists.1 (hneeded row List.mem_cons_self)
      obtain ⟨n, hn⟩ := ih fun other hother => hneeded other (List.mem_cons_of_mem row hother)
      exact ⟨_, bind_eq_ok_iff.2 ⟨_, ReportRow.require_eq_ok_iff.2 hvalue,
        bind_eq_ok_iff.2 ⟨n, hn, rfl⟩⟩⟩

/-- Writing rows makes the directories and then replaces the file.  Counting comes last: it changes
no file, and fails at a row that does not say whether it is one. -/
theorem value_write {rows : List ReportRow} (hne : rows ≠ []) (tree : FileTree) (path : Path) :
    (write tree rows path).value =
      match tree.makeDirectories path.parent with
      | (made, some e) => (made, some (.file e))
      | (made, none) =>
        ((writeRows made rows path).1, (writeRows made rows path).2.or
          (match countNeeded rows with
          | .error e => some e
          | .ok _ => none)) := by
  have hrows : ¬ rows.isEmpty = true := by simpa using hne
  unfold write
  rw [if_neg hrows]
  rcases tree.makeDirectories path.parent with ⟨made, _ | e⟩
  · rcases hwritten : writeRows made rows path with ⟨written, _ | e⟩
    · rcases hcount : countNeeded rows with e | n <;> simp [hwritten]
    · simp [hwritten]
  · rfl

/-- Counting adds no failure when every row says whether it is needed. -/
theorem write_value {rows : List ReportRow} (hne : rows ≠ [])
    (hneeded : ∀ row ∈ rows, (row.get? "needs_processing").isSome = true) (tree : FileTree)
    (path : Path) :
    (write tree rows path).value =
      match tree.makeDirectories path.parent with
      | (made, some e) => (made, some (.file e))
      | (made, none) => writeRows made rows path := by
  obtain ⟨n, hcount⟩ := countNeeded_eq_ok hneeded
  simp only [value_write hne, hcount, Option.or_none]

/-- A report that was written without a failure holds the records of all its rows. -/
theorem read_of_write {tree written : FileTree} {rows : List ReportRow} {path : Path}
    (hne : rows ≠ []) (hwrite : (write tree rows path).value = (written, none)) :
    written.read path = .ok (textOf (recordsOf rows).1).toUTF8 := by
  rw [value_write hne] at hwrite
  split at hwrite
  · cases (Prod.mk.inj hwrite).2
  · rename_i made hmade
    obtain ⟨hleft, hfailure⟩ := Prod.mk.inj hwrite
    have hnone := (Option.or_eq_none_iff.1 hfailure).1
    rcases hfile : made.write path (textOf (recordsOf rows).1).toUTF8 with e | replaced
    · simp only [writeRows, hfile] at hnone
      cases hnone
    · simp only [writeRows, hfile] at hleft
      subst hleft
      obtain ⟨l, hplace, -, -⟩ := FileTree.write_eq_ok_iff.1 hfile
      obtain ⟨hchanges, hnew⟩ := FileTree.write_changesOnlyAt hplace hfile
      exact FileTree.read_eq_ok_iff.2 ⟨l, hchanges.place? hplace, hnew⟩

/-- A report that is there is replaced whether or not all its rows can be written. -/
theorem writeRows_of_read {tree : FileTree} {path : Path} {old : ByteArray}
    (hread : tree.read path = .ok old) (rows : List ReportRow) :
    ∃ written, writeRows tree rows path = (written, (recordsOf rows).2) ∧
      written.read path = .ok (textOf (recordsOf rows).1).toUTF8 := by
  obtain ⟨l, hplace, hfile⟩ := FileTree.read_eq_ok_iff.1 hread
  have hdirectory : tree.get? l ≠ some .directory := by simp [hfile]
  have hwrite : tree.write path (textOf (recordsOf rows).1).toUTF8 =
      .ok (tree.set l (.file (textOf (recordsOf rows).1).toUTF8)) :=
    FileTree.write_eq_ok_iff.2 ⟨l, hplace, hdirectory, rfl⟩
  obtain ⟨hchanges, hnew⟩ := FileTree.write_changesOnlyAt hplace hwrite
  refine ⟨_, ?_, FileTree.read_eq_ok_iff.2 ⟨l, hchanges.place? hplace, hnew⟩⟩
  unfold writeRows
  simp only [hwrite]

/-- Making directories leaves a report as it is. -/
theorem read_makeDirectories {tree : FileTree} {path : Path} {content : ByteArray}
    (hread : tree.read path = .ok content) (directory : Path) :
    (tree.makeDirectories directory).1.read path = .ok content := by
  obtain ⟨l, hplace, hfile⟩ := FileTree.read_eq_ok_iff.1 hread
  have hchanges := FileTree.makeDirectories_changesOnlyAt tree directory
  exact FileTree.read_eq_ok_iff.2
    ⟨l, hchanges.place? hplace, hchanges.file List.not_mem_nil hfile⟩

/-- What is written as a text is read as that text. -/
theorem fromUTF8?_toUTF8 (text : String) : String.fromUTF8? text.toUTF8 = some text := by
  unfold String.fromUTF8?
  split
  · rfl
  · rename_i hvalid
    exact absurd text.isValidUTF8 hvalid

end BroadcastIntake.Report
