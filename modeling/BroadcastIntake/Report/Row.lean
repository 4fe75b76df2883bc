import BroadcastIntake.Csv
import BroadcastIntake.Json.Reader
import BroadcastIntake.Json.Writer
import BroadcastIntake.Plan
import BroadcastIntake.Text.Case
import BroadcastIntake.Timestamp

/-!
# Rows of a plan report

A plan report has one row for each file of a show.  A row is written when the file is planned, and
it is read again to see which files are left.  Reading gives a row its types back: a confidence, a
duration, the extracted fields, and four flags; all other cells stay texts.

Reports may have been edited by hand.  So a row holds whatever columns its report has, a column may
be empty, and cells beyond the last column are kept aside.
-/

namespace BroadcastIntake

/-- A row of a report: the values of its columns, and the cells beyond them, if there are any. -/
structure ReportRow where
  cells : List (String × Json)
  surplus : Option (List String)

/-- Why a report cannot be read or written. -/
inductive ReportError where
  | missing (path : Path)
  | file (error : FileError)
  /-- The file is not a text in UTF-8. -/
  | notText
  | csv (fault : Csv.Fault)
  | missingColumn (name : String)
  /-- A flag has no cell in its row. -/
  | emptyFlag
  | number (error : NumberError)
  | data (error : JsonError)
  /-- A row has columns that a report does not have; a nameless one holds the surplus cells. -/
  | strangeColumns (names : List (Option String))
  /-- The path of a file has no cell in its row. -/
  | noPath
  deriving DecidableEq, Repr

namespace ReportError

def columnName : Option String → String
  | some name => Text.quoted name
  | none => "None"

def message : ReportError → String
  | missing path => s!"Plan report not found: {path}"
  | file error => error.message
  | notText => "the report is not a text"
  | csv fault => fault.message
  | missingColumn name => Text.quoted name
  | emptyFlag => "a flag has no cell"
  | number error => error.message
  | data error => error.message
  | strangeColumns names =>
    "dict contains fields not in fieldnames: " ++
      String.intercalate ", " (names.map columnName)
  | noPath => "a file has no path"

end ReportError

namespace ReportRow

def columns : List String :=
  ["file_path", "file_name", "pattern", "matched", "confidence", "extracted_data",
   "needs_processing", "output_format", "output_path", "probed_duration", "probe_fallback",
   "warnings", "command", "analysis_date", "processed", "processing_date"]

def flagColumns : List String :=
  ["matched", "needs_processing", "probe_fallback", "processed"]

def get? (row : ReportRow) (column : String) : Option Json :=
  row.cells.lookup column

def set (row : ReportRow) (column : String) (value : Json) : ReportRow :=
  { row with cells := Json.put column value row.cells }

/-! ## Rows of plans -/

def flagText (flag : Bool) : String :=
  if flag then "True" else "False"

def ofPlan (plan : Plan) (probe : ProbeInfo) (chain : Option FilterChain)
    (command : List String) (now : Timestamp) : ReportRow :=
  let matched := plan.extraction.any (·.success)
  let fields : Fields := (plan.extraction.filter (·.success)).elim [] (·.fields)
  let data := Json.object (fields.map fun (key, value) => (key, value.toJson))
  let values : List Json :=
    [.str plan.source.toString, .str plan.source.name,
     .str (plan.pattern.elim "" (·.pattern.source)), .str (flagText matched),
     .int (plan.extraction.elim 0 (·.confidence)), .str data.write,
     .str (flagText plan.needsProcessing), .str plan.options.format, .str plan.output.toString,
     .float probe.duration, .str (flagText probe.isAssumed),
     .str (chain.elim "" fun c => String.intercalate "; " c.warnings),
     .str (String.intercalate " " command), .str now.text, .str (flagText false), .str ""]
  { cells := columns.zip values, surplus := none }

/-! ## Writing -/

def cellText : Json → String
  | .null => ""
  | .str s => s
  | value => value.display

/-- The text of a column.  Extracted fields are written as JSON. -/
def columnText (column : String) (value : Json) : String :=
  match value with
  | .object _ => if column = "extracted_data" then value.write else cellText value
  | _ => cellText value

def strangeColumns (row : ReportRow) : List (Option String) :=
  ((row.cells.map Prod.fst).filter fun name => !columns.contains name).map some ++
    (if row.surplus.isSome then [none] else [])

/-- The record of a row.  A column without value is left empty. -/
def toRecord (row : ReportRow) : Except ReportError (List String) :=
  match row.strangeColumns with
  | [] => .ok (columns.map fun column => ((row.get? column).map (columnText column)).getD "")
  | names => .error (.strangeColumns names)

/-- Whether a value in the column of a needed processing counts as yes. -/
def countsAsNeeded : Json → Bool
  | .bool b => b
  | .int n => n = 1
  | .float x => x.eqv 1
  | .str s => s = flagText true
  | _ => false

/-! ## Reading -/

/-- The row of a record under a header.  Cells beyond the header are surplus; columns beyond the
record have no value. -/
def ofRecord (header record : List String) : ReportRow :=
  let filled := header.zip (record.map Json.str)
  let empty := (header.drop record.length).map fun name => (name, Json.null)
  { cells := (filled ++ empty).foldl (fun cells (name, value) => Json.put name value cells) []
    surplus := if header.length < record.length then some (record.drop header.length) else none }

def require (row : ReportRow) (column : String) : Except ReportError Json :=
  match row.get? column with
  | some value => .ok value
  | none => .error (.missingColumn column)

/-- Gives a column its type; an empty cell has a value of its own. -/
def typed (column : String) (whenEmpty : Json) (read : String → Except ReportError Json)
    (row : ReportRow) : Except ReportError ReportRow := do
  match ← row.require column with
  | .str "" | .null => return row.set column whenEmpty
  | .str s => return row.set column (← read s)
  | _ => return row

/-- Reads the text of a flag: only `true`, in any letter case, sets it. -/
def readFlag (s : String) : Bool :=
  Text.lower s = "true"

def typedFlag (column : String) (row : ReportRow) : Except ReportError ReportRow := do
  match ← row.require column with
  | .str s => return row.set column (.bool (readFlag s))
  | _ => throw .emptyFlag

/-- A confidence, which is a whole number. -/
def readConfidence (s : String) : Except ReportError Json :=
  match readInt s with
  | .ok n => .ok (.int n)
  | .error e => .error (.number e)

/-- A duration, which is a number. -/
def readDuration (s : String) : Except ReportError Json :=
  match readBinary64 s with
  | .ok x => .ok (.float x)
  | .error e => .error (.number e)

/-- Extracted fields, which are written as JSON. -/
def readData (s : String) : Except ReportError Json :=
  match Json.read s with
  | .ok value => .ok value
  | .error e => .error (.data e)

/-- Gives all columns their types.  Only the column of processed files may be missing: then the
file counts as not processed. -/
def withTypes (row : ReportRow) : Except ReportError ReportRow := do
  let row ← row.typed "confidence" (.int 0) readConfidence
  let row ← row.typed "probed_duration" (.float 0) readDuration
  let row ← row.typed "extracted_data" (.object []) readData
  let row ← row.typedFlag "matched"
  let row ← row.typedFlag "needs_processing"
  let row ← row.typedFlag "probe_fallback"
  if (row.get? "processed").isNone then return row.set "processed" (.bool false)
  else row.typedFlag "processed"

/-- The row of a record under a header, with its types. -/
def read (header record : List String) : Except ReportError ReportRow :=
  (ofRecord header record).withTypes

end ReportRow

end BroadcastIntake
