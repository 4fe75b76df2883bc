import BroadcastIntake.Report.Row

/-!
# Report files

Reads, writes and updates the file of a plan report.  Marking a file as processed reads the whole
report, changes the first row for the file, and writes all rows again.
-/

namespace BroadcastIntake

namespace Report

def logger : String := "radio_ingest.plan_report"

/-! ## Reading -/

/-- The rows of the records under a header; blank records are passed over. -/
def readRows (header : List String) :
    List (Except Csv.Fault (List String)) → Except ReportError (List ReportRow)
  | [] => .ok []
  | .error fault :: _ => .error (.csv fault)
  | .ok [] :: rest => readRows header rest
  | .ok record :: rest => do
    let row ← ReportRow.read header record
    return row :: (← readRows header rest)

/-- The rows in the text of a report, whose first record is the header. -/
def ofText (text : String) : Except ReportError (List ReportRow) :=
  match Csv.read text with
  | [] => .ok []
  | .error fault :: _ => .error (.csv fault)
  | .ok header :: records => readRows header records

def read (tree : FileTree) (path : Path) : Except ReportError (List ReportRow) :=
  match tree.pathExists path with
  | .error e => .error (.file e)
  | .ok false => .error (.missing path)
  | .ok true =>
    match tree.read path with
    | .error e => .error (.file e)
    | .ok content =>
      match String.fromUTF8? content with
      | none => .error .notText
      | some text => ofText text

/-! ## Writing -/

/-- The records of rows up to the first row that cannot be written. -/
def recordsOf : List ReportRow → List (List String) × Option ReportError
  | [] => ([], none)
  | row :: rest =>
    match row.toRecord with
    | .error e => ([], some e)
    | .ok record =>
      let (records, failure) := recordsOf rest
      (record :: records, failure)

def textOf (records : List (List String)) : String :=
  Csv.write (ReportRow.columns :: records)

/-- How many of the rows are for files that need processing. -/
def countNeeded : List ReportRow → Except ReportError Nat
  | [] => .ok 0
  | row :: rest => do
    let needed := ReportRow.countsAsNeeded (← row.require "needs_processing")
    return (← countNeeded rest) + (if needed then 1 else 0)

/-- Writes rows below a header into a file that is made or replaced.  A row that cannot be written
ends the file before it. -/
def writeRows (tree : FileTree) (rows : List ReportRow) (path : Path) :
    FileTree × Option ReportError :=
  let (records, failure) := recordsOf rows
  match tree.write path (textOf records).toUTF8 with
  | .error e => (tree, some (.file e))
  | .ok written => (written, failure)

/-- Writes a report.  A report without rows is not written. -/
def write (tree : FileTree) (rows : List ReportRow) (path : Path) :
    Logged (FileTree × Option ReportError) :=
  if rows.isEmpty then do
    Logged.tell .warning logger s!"No files to write to plan report {path}"
    return (tree, none)
  else
    match tree.makeDirectories path.parent with
    | (made, some e) => return (made, some (.file e))
    | (made, none) =>
      match writeRows made rows path with
      | (written, some e) => return (written, some e)
      | (written, none) =>
        match countNeeded rows with
        | .error e => return (written, some e)
        | .ok needed => do
          Logged.tell .info logger
            s!"Plan saved to {path}: {rows.length} files, {needed} need processing"
          return (written, none)

/-! ## Updating -/

/-- The row of a file that was processed, or is to be processed again. -/
def mark (row : ReportRow) (processed : Bool) (date : String) : ReportRow :=
  (row.set "processed" (.bool processed)).set "processing_date" (.str date)

/-- The rows with the first row for a file marked; none when there is no such row. -/
def markFirst (file : String) (processed : Bool) (date : String) :
    List ReportRow → Except ReportError (Option (List ReportRow))
  | [] => .ok none
  | row :: rest => do
    match ← row.require "file_path" with
    | .str path =>
      if path = file then return some (mark row processed date :: rest)
      else return (← markFirst file processed date rest).map (row :: ·)
    | _ => return (← markFirst file processed date rest).map (row :: ·)

/-- Marks a file in a report.  Without a date given it is the present time.  A report that does not
exist, or has no row for the file, stays as it is. -/
def update (tree : FileTree) (path : Path) (file : String) (processed : Bool)
    (date : Option String) (now : Timestamp) : Logged (FileTree × Option ReportError) :=
  match tree.pathExists path with
  | .error e => return (tree, some (.file e))
  | .ok false => return (tree, none)
  | .ok true =>
    match read tree path with
    | .error e => return (tree, some e)
    | .ok rows =>
      let date := (date.filter (· ≠ "")).getD now.text
      match markFirst file processed date rows with
      | .error e => return (tree, some e)
      | .ok none => return (tree, none)
      | .ok (some marked) => write tree marked path

/-! ## What is left -/

/-- Whether a row counts as processed; a row without a value does not. -/
def isProcessed (row : ReportRow) : Bool :=
  ((row.get? "processed").map Json.isTruthy).getD false

/-- The file of a row, when it is there and has not been processed. -/
def leftOf (tree : FileTree) (row : ReportRow) : Except ReportError (Option Path) := do
  match ← row.require "file_path" with
  | .str s =>
    match tree.pathExists (Path.ofString s) with
    | .error e => throw (.file e)
    | .ok found => return if found && !isProcessed row then some (Path.ofString s) else none
  | _ => throw .noPath

/-- The files of a report that are there and have not been processed. -/
def left (tree : FileTree) (rows : List ReportRow) : Except ReportError (List Path) := do
  return (← rows.mapM (leftOf tree)).filterMap id

end Report

end BroadcastIntake
