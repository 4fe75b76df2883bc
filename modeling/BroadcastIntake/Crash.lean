import BroadcastIntake.FileTree
import BroadcastIntake.Probe

/-!
# Crashes

Most of what goes wrong with a file has a place in its result.  The rest are crashes: failures that
no part of the intake expects.  A crash ends the job it happens in, and a batch turns it into a
failed result, so that no other job is touched.
-/

namespace BroadcastIntake

/-- A failure that no part of the intake expects. -/
inductive Crash where
  /-- A tool or a copier broke down, with a text that says why. -/
  | broken (reason : String)
  /-- A file operation failed where none was expected to. -/
  | file (error : FileError)
  /-- A path without a last name was to be given another one. -/
  | namelessPath (path : Path)
  /-- The prober's report leads to no answer. -/
  | report (error : ProbeError)
  /-- The record of an extraction breaks a rule. -/
  | extraction (issues : List Issue)
  /-- A short year is a text. -/
  | textYear
  deriving DecidableEq, Repr

namespace ProbeError

def message : ProbeError → String
  | fault f => f.message
  | unreadableNumber e | tooDeep e => e.message
  | durationTooLarge => "int too large to convert to float"
  | streamsNotCountable => "the list of streams has no length"
  | invalid issues => s!"{issues.length} invalid fields"

end ProbeError

namespace Crash

def message : Crash → String
  | broken reason => reason
  | file error => error.message
  | namelessPath path => Text.quoted path.toString ++ " has an empty name"
  | report error => error.message
  | extraction issues => String.intercalate "; " (issues.filterMap fun i => i.kind.message?)
  | textYear => "'<' not supported between instances of 'str' and 'int'"

end Crash

end BroadcastIntake
