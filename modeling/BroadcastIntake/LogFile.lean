import BroadcastIntake.FileTree
import BroadcastIntake.Log
import BroadcastIntake.Text.Case
import BroadcastIntake.Timestamp

/-!
# Log files

Records go to the console and, when that is asked for, to a file.  The file is made when logging is
set up, and every record that is urgent enough becomes a line at its end.

Before a record that would make the file reach its size limit the file is put away: `f` becomes
`f.1`, `f.1` becomes `f.2`, and so on, and the oldest is dropped.  A file without a size limit, or
of which no older ones are kept, grows for ever.
-/

namespace BroadcastIntake

/-- From which level on records are kept. -/
inductive LogThreshold where
  | from_ (level : LogLevel)
  /-- No level is set, so the one for all programs counts. -/
  | unset
  deriving DecidableEq, Repr

namespace LogThreshold

def otherNames : List (String × LogThreshold) :=
  [("WARN", .from_ .warning), ("FATAL", .from_ .critical), ("NOTSET", .unset)]

/-- The threshold with the given name, in any letter case. -/
def ofName? (name : String) : Option LogThreshold :=
  let upper := Text.upper name
  ((LogLevel.ofName? upper).map from_).or (otherNames.lookup upper)

def name : LogThreshold → String
  | from_ level => level.name
  | unset => "NOTSET"

/-- The least level that is kept. -/
def level : LogThreshold → LogLevel
  | from_ level => level
  | unset => .warning

end LogThreshold

/-- A file for records: its path, the size it must not reach, and how many older ones are kept. -/
structure LogFile where
  path : Path
  maxBytes : Int
  backups : Int
  deriving DecidableEq, Repr

/-- Where records go besides the console, and which ones. -/
structure LogSetup where
  threshold : LogThreshold
  file : Option LogFile
  deriving DecidableEq, Repr

/-- Why logging cannot be set up. -/
inductive LogSetupError where
  | unknownLevel (name : String)
  | file (error : FileError)
  deriving DecidableEq, Repr

def LogSetupError.message : LogSetupError → String
  | unknownLevel name => s!"Unknown level: {Text.quoted name}"
  | file error => error.message

namespace LogFile

/-- The size limit of a log file when none is asked for. -/
def standardMaxBytes : Int := 10 * 1024 * 1024

/-- How many older log files are kept unless another number is asked for. -/
def standardBackups : Int := 5

/-! ## Opening -/

def touch (tree : FileTree) (path : Path) : Except FileError FileTree :=
  match tree.read path with
  | .ok _ => .ok tree
  | .error e => if e.fault = .missing then tree.write path ByteArray.empty else .error e

/-- Makes the directories above a log file and the file itself.  The file is opened by its absolute
path. -/
def openAt (tree : FileTree) (path : Path) (maxBytes backups : Int) :
    Except FileError (LogFile × FileTree) :=
  match tree.makeDirectories path.parent with
  | (_, some e) => .error e
  | (made, none) =>
    let file : LogFile := ⟨path.resolve tree.workingDirectory, maxBytes, backups⟩
    (touch made file.path).map fun touched => (file, touched)

/-! ## Putting away -/

def backupPath (f : LogFile) (number : Nat) : Path :=
  f.path.withName s!"{f.path.name}.{number}"

/-- Moves a file to a place, replacing the file that stands there; nothing is done when it does not
exist. -/
def replaceBy (source destination : Path) (tree : FileTree) : Except FileError FileTree := do
  if ← tree.pathExists source then
    let freed ← if ← tree.pathExists destination then tree.remove destination else pure tree
    freed.move source destination
  else return tree

/-- Moves the older files up by one, the one with the largest number first. -/
def shiftBackups (f : LogFile) : Nat → FileTree → Except FileError FileTree
  | 0, tree => .ok tree
  | n + 1, tree => do
    let shifted ← replaceBy (f.backupPath (n + 1)) (f.backupPath (n + 2)) tree
    shiftBackups f n shifted

def putAway (f : LogFile) (tree : FileTree) : Except FileError FileTree := do
  let shifted ← f.shiftBackups (f.backups.toNat - 1) tree
  let moved ← replaceBy f.path (f.backupPath 1) shifted
  moved.write f.path ByteArray.empty

/-! ## Writing -/

def line (now : Timestamp) (r : LogRecord) : String :=
  s!"{now.text} [{r.level.name}] {r.logger}: {r.message}\n"

/-- The form of the time at the start of a line; a zero stands for a digit. -/
def timeForm : List Char := "0000-00-00 00:00:00 ".toList

def startsWithTime (cs : List Char) : Bool :=
  timeForm.length ≤ cs.length &&
    (cs.zip timeForm).all fun (c, form) => if form = '0' then c.isDigit else c = form

/-- The text of a log with a mark in place of the time of every line. -/
def withoutTimes (mark text : String) : String :=
  let line (cs : List Char) : List Char :=
    if startsWithTime cs then mark.toList ++ ' ' :: cs.drop timeForm.length else cs
  let lines := Text.splitOnChar '\n' text
  String.intercalate "\n" (lines.map fun s => String.ofList (line s.toList))

/-- Whether a log file has to be put away before a line of `added` characters. -/
def isFull (f : LogFile) (size added : Nat) : Bool :=
  0 < f.maxBytes && f.maxBytes ≤ size + added && 0 < f.backups

/-- Writes a line at the end of a log file. -/
def append (f : LogFile) (text : String) (tree : FileTree) : Except FileError FileTree := do
  let content ← tree.read f.path
  if f.isFull content.size text.length then
    (← f.putAway tree).write f.path text.toUTF8
  else tree.write f.path (content ++ text.toUTF8)

end LogFile

namespace LogSetup

/-- The part of the intake that stands for all of it. -/
def rootLogger : String := "radio_ingest"

/-- Whether a record belongs to the intake. -/
def isOwn (r : LogRecord) : Bool :=
  r.logger = rootLogger || (rootLogger ++ ".").isPrefixOf r.logger

def keeps (s : LogSetup) (r : LogRecord) : Bool :=
  isOwn r && s.threshold.level.weight ≤ r.level.weight

/-- Sets logging up, with the log file at a path, if one is given. -/
def start (tree : FileTree) (levelName : String) (file : Option Path)
    (maxBytes backups : Int) : Except LogSetupError (LogSetup × FileTree) :=
  match LogThreshold.ofName? levelName with
  | none => .error (.unknownLevel (Text.upper levelName))
  | some threshold =>
    match file with
    | none => .ok (⟨threshold, none⟩, tree)
    | some path =>
      match LogFile.openAt tree path maxBytes backups with
      | .ok (file, opened) => .ok (⟨threshold, some file⟩, opened)
      | .error e => .error (.file e)

/-- The tree after a record has been made.  A record that cannot be written is lost. -/
def note (s : LogSetup) (now : Timestamp) (tree : FileTree) (r : LogRecord) : FileTree :=
  match s.file with
  | none => tree
  | some file =>
    if s.keeps r then
      match file.append (LogFile.line now r) tree with
      | .ok written => written
      | .error _ => tree
    else tree

def noteAll (s : LogSetup) (now : Timestamp) (tree : FileTree) (records : List LogRecord) :
    FileTree :=
  records.foldl (s.note now) tree

/-- Without a log file no record touches the tree. -/
theorem noteAll_of_file_eq_none {s : LogSetup} (h : s.file = none) (now : Timestamp)
    (tree : FileTree) (records : List LogRecord) : s.noteAll now tree records = tree := by
  induction records with
  | nil => rfl
  | cons r rest ih => simpa [noteAll, note, h] using ih

end LogSetup

end BroadcastIntake
