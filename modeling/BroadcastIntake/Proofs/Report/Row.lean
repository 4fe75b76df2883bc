import BroadcastIntake.Proofs.Members
import BroadcastIntake.Proofs.Outcome
import BroadcastIntake.Report.Row

/-!
# Reading and changing rows

Reading a row only gives types to columns that a report has.  So a row that is read has exactly the
columns of its header, it is strange when its record was, and the columns that stay texts have the
cells of the record.
-/

namespace BroadcastIntake.ReportRow

open Outcome (bind_eq_ok_iff pure_eq_ok_iff)

/-! ## Setting a column -/

theorem get?_set (row : ReportRow) (column k : String) (value : Json) :
    (row.set column value).get? k = if k = column then some value else row.get? k :=
  Json.lookup_put column k value row.cells

theorem isSome_get? (row : ReportRow) (column : String) :
    (row.get? column).isSome = true ↔ column ∈ row.cells.map Prod.fst :=
  isSome_lookup column row.cells

/-- Setting a column that a report has makes no row strange and mends none. -/
theorem strangeColumns_set (row : ReportRow) {column : String} (hcolumn : column ∈ columns)
    (value : Json) : (row.set column value).strangeColumns = row.strangeColumns := by
  have hkeys : ((row.set column value).cells.map Prod.fst).filter
        (fun name => !columns.contains name) =
      (row.cells.map Prod.fst).filter fun name => !columns.contains name := by
    show ((Json.put column value row.cells).map Prod.fst).filter _ = _
    rw [Json.keys_put]
    split
    · rfl
    · -- the new key is one of the columns and is filtered out
      simp [List.filter_append, hcolumn]
  unfold strangeColumns
  rw [hkeys]
  rfl

theorem require_eq_ok_iff {row : ReportRow} {column : String} {value : Json} :
    row.require column = .ok value ↔ row.get? column = some value := by
  unfold require
  cases row.get? column <;> simp

/-! ## Types -/

/-- The columns whose cells get types when a row is read. -/
def typedColumns : List String :=
  ["confidence", "probed_duration", "extracted_data"] ++ flagColumns

theorem mem_columns_of_mem_typedColumns {column : String} (hcolumn : column ∈ typedColumns) :
    column ∈ columns := by
  have hall : ∀ column ∈ typedColumns, column ∈ columns := by decide
  exact hall column hcolumn

/-- The second row is the first with other values in columns that get types. -/
structure Retypes (row typed : ReportRow) : Prop where
  strangeColumns : typed.strangeColumns = row.strangeColumns
  get? : ∀ column, column ∉ typedColumns → typed.get? column = row.get? column

namespace Retypes

variable {row typed : ReportRow}

theorem refl (row : ReportRow) : Retypes row row :=
  ⟨rfl, fun _ _ => rfl⟩

theorem set (hretypes : Retypes row typed) {column : String} (hcolumn : column ∈ typedColumns)
    (value : Json) : Retypes row (typed.set column value) := by
  refine ⟨?_, ?_⟩
  · rw [strangeColumns_set typed (mem_columns_of_mem_typedColumns hcolumn),
      hretypes.strangeColumns]
  · intro k hk
    have hne : k ≠ column := by
      rintro rfl
      exact hk hcolumn
    rw [get?_set, if_neg hne, hretypes.get? k hk]

end Retypes

theorem typed_eq_ok {row row' : ReportRow} {column : String} {whenEmpty : Json}
    {read : String → Except ReportError Json}
    (htyped : row.typed column whenEmpty read = .ok row') :
    row' = row ∨ ∃ value, row' = row.set column value := by
  obtain ⟨cell, -, hcell⟩ := bind_eq_ok_iff.1 htyped
  split at hcell
  · exact .inr ⟨_, (pure_eq_ok_iff.1 hcell).symm⟩
  · exact .inr ⟨_, (pure_eq_ok_iff.1 hcell).symm⟩
  · obtain ⟨value, -, hset⟩ := bind_eq_ok_iff.1 hcell
    exact .inr ⟨value, (pure_eq_ok_iff.1 hset).symm⟩
  · exact .inl (pure_eq_ok_iff.1 hcell).symm

theorem typedFlag_eq_ok {row row' : ReportRow} {column : String}
    (htyped : row.typedFlag column = .ok row') :
    ∃ flag, row' = row.set column (.bool flag) := by
  obtain ⟨cell, -, hcell⟩ := bind_eq_ok_iff.1 htyped
  split at hcell
  · exact ⟨_, (pure_eq_ok_iff.1 hcell).symm⟩
  · cases hcell

/-- The row has a flag in the column. -/
def HasFlag (row : ReportRow) (column : String) : Prop :=
  ∃ flag, row.get? column = some (.bool flag)

theorem HasFlag.isSome {row : ReportRow} {column : String} (hflag : row.HasFlag column) :
    (row.get? column).isSome = true := by
  obtain ⟨flag, hget⟩ := hflag
  rw [hget]
  rfl

theorem hasFlag_set (row : ReportRow) (column : String) (flag : Bool) :
    (row.set column (.bool flag)).HasFlag column :=
  ⟨flag, by rw [get?_set, if_pos rfl]⟩

theorem HasFlag.set {row : ReportRow} {column : String} (hflag : row.HasFlag column)
    {other : String} (hother : column ≠ other) (value : Json) :
    (row.set other value).HasFlag column := by
  obtain ⟨flag, hget⟩ := hflag
  exact ⟨flag, by rw [get?_set, if_neg hother, hget]⟩

/-- What reading the types of a row leads to, when it does. -/
theorem withTypes_eq_ok {row row' : ReportRow} (htypes : row.withTypes = .ok row') :
    Retypes row row' ∧ row'.HasFlag "needs_processing" ∧ row'.HasFlag "processed" := by
  obtain ⟨first, hfirst, htypes⟩ := bind_eq_ok_iff.1 htypes
  obtain ⟨second, hsecond, htypes⟩ := bind_eq_ok_iff.1 htypes
  obtain ⟨third, hthird, htypes⟩ := bind_eq_ok_iff.1 htypes
  obtain ⟨fourth, hfourth, htypes⟩ := bind_eq_ok_iff.1 htypes
  obtain ⟨fifth, hfifth, htypes⟩ := bind_eq_ok_iff.1 htypes
  obtain ⟨sixth, hsixth, htypes⟩ := bind_eq_ok_iff.1 htypes
  have hcell : ∀ {before after : ReportRow} {column : String} {whenEmpty : Json}
      {read : String → Except ReportError Json}, Retypes row before → column ∈ typedColumns →
      before.typed column whenEmpty read = .ok after → Retypes row after := by
    intro before after column whenEmpty read hbefore hcolumn htyped
    rcases typed_eq_ok htyped with rfl | ⟨value, rfl⟩
    · exact hbefore
    · exact hbefore.set hcolumn value
  have hthirdTypes : Retypes row third :=
    hcell (hcell (hcell (.refl row) (by decide) hfirst) (by decide) hsecond) (by decide) hthird
  obtain ⟨matched, rfl⟩ := typedFlag_eq_ok hfourth
  obtain ⟨needed, rfl⟩ := typedFlag_eq_ok hfifth
  obtain ⟨fallback, rfl⟩ := typedFlag_eq_ok hsixth
  -- this column alone may be missing
  have hprocessed : ∃ flag, row' =
      (((third.set "matched" (.bool matched)).set "needs_processing" (.bool needed)).set
        "probe_fallback" (.bool fallback)).set "processed" (.bool flag) := by
    split at htypes
    · exact ⟨false, (pure_eq_ok_iff.1 htypes).symm⟩
    · exact typedFlag_eq_ok htypes
  obtain ⟨processed, rfl⟩ := hprocessed
  refine ⟨?_, ?_, hasFlag_set _ _ _⟩
  · exact (((hthirdTypes.set (by decide) _).set (by decide) _).set (by decide) _).set
      (by decide) _
  · exact ((hasFlag_set _ _ _).set (by decide) _).set (by decide) _

/-! ## Records -/

/-- The columns with a cell and those without are the columns of the header. -/
theorem headings_eq (header : List String) :
    ∀ cells : List Json, (header.zip cells).map Prod.fst ++ header.drop cells.length = header := by
  induction header with
  | nil => simp
  | cons name rest ih =>
      intro cells
      cases cells with
      | nil => rfl
      | cons cell more =>
          rw [List.zip_cons_cons, List.map_cons, List.length_cons, List.drop_succ_cons,
            List.cons_append, ih]

theorem cells_ofRecord (header record : List String) : (ofRecord header record).cells =
    Json.putAll [] (header.zip (record.map Json.str) ++
      (header.drop record.length).map fun name => (name, Json.null)) :=
  rfl

/-- A row has the columns of its header. -/
theorem mem_keys_ofRecord (header record : List String) (k : String) :
    k ∈ (ofRecord header record).cells.map Prod.fst ↔ k ∈ header := by
  have hheadings := headings_eq header (record.map Json.str)
  rw [List.length_map] at hheadings
  rw [cells_ofRecord, Json.mem_keys_putAll, List.map_append, List.map_map]
  show k ∈ _ ++ (header.drop record.length).map id ∨ k ∈ [] ↔ k ∈ header
  rw [List.map_id, hheadings]
  simp

/-- What a row that was read has. -/
structure IsReadUnder (header : List String) (row : ReportRow) : Prop where
  /-- The path of the file is there when the header has its column. -/
  path : (row.get? "file_path").isSome = true ↔ "file_path" ∈ header
  needed : row.HasFlag "needs_processing"
  processed : row.HasFlag "processed"

theorem isReadUnder_of_read {header record : List String} {row : ReportRow}
    (hread : read header record = .ok row) : IsReadUnder header row := by
  obtain ⟨hretypes, hneeded, hprocessed⟩ := withTypes_eq_ok hread
  refine ⟨?_, hneeded, hprocessed⟩
  rw [hretypes.get? "file_path" (by decide), isSome_get?, mem_keys_ofRecord]

/-- The text in which the value of a column is written. -/
def text (row : ReportRow) (column : String) : String :=
  ((row.get? column).map (columnText column)).getD ""

theorem toRecord_eq_ok_iff {row : ReportRow} {record : List String} :
    row.toRecord = .ok record ↔ row.strangeColumns = [] ∧ record = columns.map row.text := by
  unfold toRecord
  split
  · rename_i hnone
    have htexts : (columns.map fun column =>
        ((row.get? column).map (columnText column)).getD "") = columns.map row.text := rfl
    rw [htexts]
    simp [hnone, eq_comm]
  · rename_i names hnames
    constructor
    · intro herror
      cases herror
    · rintro ⟨hnone, -⟩
      exact (hnames hnone).elim

end BroadcastIntake.ReportRow
