import BroadcastIntake.Proofs.Extraction
import BroadcastIntake.Proofs.Json.Record
import BroadcastIntake.Proofs.Number.RoundTrip
import BroadcastIntake.Proofs.Report.File

/-!
# Rows of plans

The row of a plan holds texts where a row that was read holds values: its flags are the words `True`
and `False`, and its extracted fields are the text of a record.  Each of these texts is one that
reading takes, so the row of a plan can always be read back, unless a field is too long for a cell.
-/

namespace BroadcastIntake

open Outcome (bind_eq_ok_iff pure_eq_ok_iff)

/-! ## What can be written -/

/-- A whole number of few digits is short enough to be read. -/
theorem length_natDigits_le {n : Int} (hlow : 0 ≤ n) (hhigh : n < 10000) :
    (natDigits n.natAbs).length ≤ NumberError.digitLimit := by
  have hfour : (natDigits n.natAbs).length ≤ 4 :=
    (Nat.length_toDigits_le_iff (by decide) (by decide)).2 (by omega)
  exact Nat.le_trans hfour (by decide)

/-- An extraction whose numbers are short enough to be read and whose fields have different keys. -/
structure Extraction.IsWritable (e : Extraction) : Prop where
  confidence : 0 ≤ e.confidence ∧ e.confidence ≤ 100
  number : ∀ key n, (key, FieldValue.number n) ∈ e.fields →
    (natDigits n.natAbs).length ≤ NumberError.digitLimit
  keys : (e.fields.map Prod.fst).Nodup

/-- What is extracted from a file name can be written. -/
theorem Extraction.InRange.isWritable {e : Extraction} (he : e.InRange) : e.IsWritable where
  confidence := he.confidence
  number := fun key n hmem => length_natDigits_le (he.number key n hmem).1 (he.number key n hmem).2
  keys := he.keys

/-- The confidence of a plan is short enough to be read. -/
theorem length_confidence_le {plan : Plan}
    (hwritable : ∀ e, plan.extraction = some e → e.IsWritable) :
    (natDigits (plan.extraction.elim 0 (·.confidence)).natAbs).length ≤ NumberError.digitLimit := by
  rcases hextraction : plan.extraction with _ | e
  · decide
  · obtain ⟨hlow, hhigh⟩ := (hwritable e hextraction).confidence
    exact length_natDigits_le hlow (Int.lt_of_le_of_lt hhigh (by decide))

namespace ReportRow

/-! ## Reading the cells of a report -/

/-- The row of a record that has a cell for every column. -/
theorem ofRecord_columns (f : String → String) :
    ofRecord columns (columns.map f) =
      { cells := columns.map fun name => (name, .str (f name)), surplus := none } := by
  have hnodup : columns.Nodup := by decide
  -- the columns differ, so no cell takes the place of another
  have hcells : (ofRecord columns (columns.map f)).cells =
      columns.map fun name => (name, .str (f name)) := by
    rw [cells_ofRecord, List.map_map, List.length_map, List.drop_length, List.map_nil,
      List.append_nil, List.map_prod_left_eq_zip, Json.putAll_of_nodup]
    · rfl
    · rw [List.map_fst_zip (by simp)]
      exact hnodup
  have hsurplus : (ofRecord columns (columns.map f)).surplus = none := by
    unfold ofRecord
    rw [if_neg (by simp)]
  rw [← hcells, ← hsurplus]

/-- A record with a cell for every column fills every column with its cell. -/
theorem get?_ofRecord_columns (f : String → String) {column : String}
    (hcolumn : column ∈ columns) :
    (ofRecord columns (columns.map f)).get? column = some (.str (f column)) := by
  have hlookup : ∀ names : List String, column ∈ names →
      (names.map fun name => (name, Json.str (f name))).lookup column =
        some (.str (f column)) := by
    intro names hmem
    induction names with
    | nil => cases hmem
    | cons name rest ih =>
        rw [List.map_cons, lookup_cons_ite]
        split
        · rename_i heq
          rw [heq]
        · rename_i hne
          rcases List.mem_cons.1 hmem with heq | hmem
          · exact absurd heq hne
          · exact ih hmem
  unfold get?
  rw [ofRecord_columns]
  exact hlookup columns hcolumn

/-- The value that the text of a cell is read as. -/
def cellValue (whenEmpty : Json) (read : String → Except ReportError Json) (s : String) :
    Except ReportError Json :=
  if s = "" then .ok whenEmpty else read s

theorem typed_of_text {row : ReportRow} {column s : String}
    (hcell : row.get? column = some (.str s)) {whenEmpty value : Json}
    {read : String → Except ReportError Json}
    (hvalue : cellValue whenEmpty read s = .ok value) :
    row.typed column whenEmpty read = .ok (row.set column value) := by
  unfold cellValue at hvalue
  unfold typed
  rw [require_eq_ok_iff.2 hcell]
  simp only [bind, Except.bind, pure, Except.pure]
  split
  · rename_i hempty
    rw [if_pos (Json.str.inj hempty)] at hvalue
    rw [Except.ok.inj hvalue]
  · rename_i h
    cases h
  · rename_i hne h
    obtain rfl := Json.str.inj h
    rw [if_neg fun hempty => hne (by rw [hempty])] at hvalue
    rw [hvalue]
  · rename_i hother
    exact absurd rfl (hother s)

theorem typedFlag_of_text {row : ReportRow} {column s : String}
    (hcell : row.get? column = some (.str s)) :
    row.typedFlag column = .ok (row.set column (.bool (readFlag s))) := by
  unfold typedFlag
  rw [require_eq_ok_iff.2 hcell]
  rfl

/-- The row with the values that its texts are read as. -/
def withValues (row : ReportRow) (confidence duration data : Json) (flag : String → Bool) :
    ReportRow :=
  ((((((row.set "confidence" confidence).set "probed_duration" duration).set
    "extracted_data" data).set "matched" (.bool (flag "matched"))).set
    "needs_processing" (.bool (flag "needs_processing"))).set
    "probe_fallback" (.bool (flag "probe_fallback"))).set "processed" (.bool (flag "processed"))

/-- A row of texts is read when its number cells and its data cell are. -/
theorem withTypes_of_texts {row : ReportRow} {f : String → String}
    (hcells : ∀ column ∈ typedColumns, row.get? column = some (.str (f column)))
    {confidence duration data : Json}
    (hconfidence : cellValue (.int 0) readConfidence (f "confidence") = .ok confidence)
    (hduration : cellValue (.float 0) readDuration (f "probed_duration") = .ok duration)
    (hdata : cellValue (.object []) readData (f "extracted_data") = .ok data) :
    row.withTypes =
      .ok (row.withValues confidence duration data fun column => readFlag (f column)) := by
  -- a column keeps its text until it is its turn
  have hcell : ∀ {before : ReportRow} (column : String), column ∈ typedColumns →
      before.get? column = row.get? column → before.get? column = some (.str (f column)) :=
    fun column hcolumn hsame => hsame.trans (hcells column hcolumn)
  unfold withTypes withValues
  refine bind_eq_ok_iff.2
    ⟨_, typed_of_text (hcell "confidence" (by decide) rfl) hconfidence, ?_⟩
  refine bind_eq_ok_iff.2
    ⟨_, typed_of_text (hcell "probed_duration" (by decide) ?_) hduration, ?_⟩
  · simp [get?_set]
  refine bind_eq_ok_iff.2
    ⟨_, typed_of_text (hcell "extracted_data" (by decide) ?_) hdata, ?_⟩
  · simp [get?_set]
  refine bind_eq_ok_iff.2 ⟨_, typedFlag_of_text (hcell "matched" (by decide) ?_), ?_⟩
  · simp [get?_set]
  refine bind_eq_ok_iff.2 ⟨_, typedFlag_of_text (hcell "needs_processing" (by decide) ?_), ?_⟩
  · simp [get?_set]
  refine bind_eq_ok_iff.2 ⟨_, typedFlag_of_text (hcell "probe_fallback" (by decide) ?_), ?_⟩
  · simp [get?_set]
  have hprocessed := hcells "processed" (by decide)
  rw [if_neg]
  · refine typedFlag_of_text (hcell "processed" (by decide) ?_)
    simp [get?_set]
  · simp [get?_set, hprocessed]

/-! ## The row of a plan -/

/-- The extracted fields of a plan as members. -/
def planMembers (plan : Plan) : List (String × Json) :=
  ((plan.extraction.filter (·.success)).elim [] (·.fields)).map fun (key, value) =>
    (key, value.toJson)

section OfPlan

variable (plan : Plan) (probe : ProbeInfo) (chain : Option FilterChain) (command : List String)
variable (now : Timestamp)

theorem text_ofPlan_confidence : (ofPlan plan probe chain command now).text "confidence" =
    intText (plan.extraction.elim 0 (·.confidence)) :=
  String.ofList_toList

theorem text_ofPlan_duration :
    (ofPlan plan probe chain command now).text "probed_duration" = probe.duration.text :=
  String.ofList_toList

theorem text_ofPlan_data : (ofPlan plan probe chain command now).text "extracted_data" =
    (Json.object (planMembers plan)).write :=
  rfl

theorem strangeColumns_ofPlan : (ofPlan plan probe chain command now).strangeColumns = [] := by
  rfl

end OfPlan

theorem isReadBack_of_mem_planMembers {plan : Plan}
    (hwritable : ∀ e, plan.extraction = some e → e.IsWritable) :
    ∀ member ∈ planMembers plan, Json.IsReadBack member.2 := by
  intro member hmember
  obtain ⟨⟨key, value⟩, hfield, rfl⟩ := List.mem_map.1 hmember
  cases value with
  | text s => exact Json.isReadBack_str s
  | number n =>
      rcases hextraction : plan.extraction with _ | e
      · rw [hextraction] at hfield
        cases hfield
      · rw [hextraction] at hfield
        by_cases hsuccess : e.success = true
        · rw [Option.filter_some_pos hsuccess] at hfield
          exact Json.isReadBack_int ((hwritable e hextraction).number key n hfield)
        · rw [Option.filter_some_neg (by simpa using hsuccess)] at hfield
          cases hfield

theorem cellValue_confidence {n : Int}
    (hn : (natDigits n.natAbs).length ≤ NumberError.digitLimit) :
    cellValue (.int 0) readConfidence (intText n) = .ok (.int n) := by
  have hne : intText n ≠ "" := by
    intro hempty
    obtain ⟨c, cs, hcs, -⟩ := Json.intText_head n
    rw [hempty] at hcs
    cases hcs
  unfold cellValue readConfidence
  rw [if_neg hne, readInt_intText hn]

theorem cellValue_duration (x : Binary64) :
    ∃ value, cellValue (.float 0) readDuration x.text = .ok value := by
  unfold cellValue readDuration
  split
  · exact ⟨_, rfl⟩
  · obtain ⟨y, hy⟩ := readBinary64_text x
    exact ⟨.float y, by rw [hy]⟩

theorem cellValue_data {members : List (String × Json)}
    (hmembers : ∀ member ∈ members, Json.IsReadBack member.2) :
    cellValue (.object []) readData (Json.object members).write =
      .ok (.object (Json.putAll [] (Json.sortMembers members))) := by
  have hne : (Json.object members).write ≠ "" := by
    intro hempty
    have hchars := congrArg String.toList hempty
    unfold Json.write Json.writeChars at hchars
    rw [String.toList_ofList] at hchars
    cases hchars
  unfold cellValue readData
  rw [if_neg hne, Json.read_write_object hmembers]

/-- **Rows of plans** are read back from their records, and count as not processed. -/
theorem read_ofPlan {plan : Plan} (hrange : ∀ e, plan.extraction = some e → e.InRange)
    (probe : ProbeInfo) (chain : Option FilterChain) (command : List String) (now : Timestamp) :
    ∃ row, read columns (columns.map (ofPlan plan probe chain command now).text) = .ok row ∧
      row.get? "file_path" = some (.str plan.source.toString) ∧
      row.get? "processed" = some (.bool false) := by
  have hwritable : ∀ e, plan.extraction = some e → e.IsWritable :=
    fun e he => (hrange e he).isWritable
  have hconfidence := cellValue_confidence (length_confidence_le hwritable)
  obtain ⟨duration, hduration⟩ := cellValue_duration probe.duration
  have hdata := cellValue_data (isReadBack_of_mem_planMembers hwritable)
  rw [← text_ofPlan_confidence plan probe chain command now] at hconfidence
  rw [← text_ofPlan_duration plan probe chain command now] at hduration
  rw [← text_ofPlan_data plan probe chain command now] at hdata
  have htypes := withTypes_of_texts
    (fun column hcolumn => get?_ofRecord_columns (ofPlan plan probe chain command now).text
      (mem_columns_of_mem_typedColumns hcolumn))
    hconfidence hduration hdata
  refine ⟨_, htypes, ?_, ?_⟩
  · rw [(withTypes_eq_ok htypes).1.get? "file_path" (by decide),
      get?_ofRecord_columns _ (by decide)]
    rfl
  · have hflag : readFlag ((ofPlan plan probe chain command now).text "processed") = false := by
      show readFlag "False" = false
      decide
    rw [withValues, get?_set, if_pos rfl, hflag]

end ReportRow

end BroadcastIntake
