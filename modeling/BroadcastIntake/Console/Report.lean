import BroadcastIntake.Batch.Stats
import BroadcastIntake.Console.Basic
import BroadcastIntake.Pattern.Check
import BroadcastIntake.Plan

/-!
# Results on the console

How plans, results of jobs, trials of patterns and the statistics of a batch are printed.
-/

namespace BroadcastIntake

/-- How something that is not there is printed. -/
def absentText : String := "None"

/-- A path that may not be there, as it is printed. -/
def pathText (path : Option Path) : String :=
  (path.map Path.toString).getD absentText

def Fields.line (fields : Fields) : String :=
  String.intercalate ", " (fields.map fun (key, value) => s!"{key}={value.display}")

/-! ## Plans -/

namespace Plan

/-- What was read from the name of the file. -/
def extractedText (p : Plan) : String :=
  match p.extraction with
  | some e =>
    if e.success then
      let line := Fields.line e.fields
      let shown := if line = "" then "-" else line
      s!"{shown} [dim]({intText e.confidence}%)[/dim]"
    else noMatch
  | none => noMatch
where
  /-- What is printed when nothing was read. -/
  noMatch : String := "[yellow]No match - using current date[/yellow]"

def patternText (p : Plan) : String :=
  match p.pattern with
  | some fp => if fp.pattern.source = "" then noPattern else fp.pattern.source
  | none => noPattern
where
  /-- What is printed when there is no pattern. -/
  noPattern : String := "[red]None[/red]"

def dateRow (p : Plan) : List (List String) :=
  match p.date with
  | some d =>
    [["Date", s!"{paddedInt 4 d.year}-{paddedInt 2 d.month}-{paddedInt 2 d.day}"]]
  | none => []

/-- The rows for the tags that are set. -/
def tagRows (p : Plan) : List (List String) :=
  (p.options.tags.filter fun tag => tag.2 ≠ "").map fun (name, value) => [s!"Tag: {name}", value]

/-- What will be done. -/
def actionText (p : Plan) : String :=
  if p.needsProcessing then s!"[orange3]Transcode to {p.options.format}[/orange3]"
  else "[green]✓ Pass-through copy[/green]"

def table (p : Plan) : ConsoleTable :=
  { title := none
    columns := ["Property", "Value"]
    rows := [["File Path", p.source.toString], ["Pattern", p.patternText],
        ["Extracted", p.extractedText]] ++ p.dateRow ++ p.tagRows ++
      [["Action", p.actionText], ["Output Path", p.output.toString]] }

/-- The panel of a command; an empty one is not shown. -/
def commandPanel (command : List String) : List ConsoleItem :=
  if command.isEmpty then []
  else
    [.panel ⟨some "[bold yellow]FFmpeg Command[/bold yellow]", "yellow",
      .text (String.intercalate " " command)⟩]

def shown (p : Plan) (command : List String) : List ConsoleItem :=
  .table p.table :: commandPanel command

end Plan

/-! ## Results of jobs -/

namespace JobResult

/-- What is printed about how a job ended. -/
def outcomeShown (r : JobResult) : List ConsoleItem :=
  if !r.success then ConsoleItem.failure "Processing failed" r.error
  else if r.usedFallback then
    [ConsoleItem.warning s!"Copied original as fallback: {pathText r.output}",
     .line s!"[yellow]Details: {r.error.getD absentText}[/yellow]"]
  else if r.transcoded then [ConsoleItem.success s!"Transcoded: {pathText r.output}"]
  else [ConsoleItem.success s!"Copied: {pathText r.output}"]

/-- What is printed about the result of a job: how it ended, and its warnings. -/
def shown (r : JobResult) : List ConsoleItem :=
  r.outcomeShown ++ r.warnings.map ConsoleItem.warning

end JobResult

/-! ## Trials of patterns -/

namespace Extraction.Trial

/-- What a trial read, or why it could not be made. -/
def dataText (t : Trial) : String :=
  if t.errors.isEmpty then Fields.line t.extraction.fields
  else s!"[red]{String.intercalate separator t.errors}[/red]"
where
  /-- What stands between two errors. -/
  separator : String := "; "

def row (t : Trial) : List String :=
  let mark := if t.extraction.success then "[green]✓[/green]" else "[red]✗[/red]"
  [t.filename, mark, t.dataText, s!"{intText t.extraction.confidence}%"]

def table (pattern : String) (trials : List Trial) : ConsoleItem :=
  .table
    { title := some s!"Pattern: {pattern}"
      columns := ["Filename", "Match", "Extracted Data", "Confidence"]
      rows := trials.map row }

end Extraction.Trial

namespace ShowProfile

/-- What is printed about trying one pattern on names: its warnings and the table of its trials. -/
def patternShown (source : String) (names : List String) :
    Except (List Issue) (List ConsoleItem) :=
  (Extraction.tryPattern source names).map fun trials =>
    (checkPattern source).warnings.map (fun w => ConsoleItem.warning s!"{source}: {w}") ++
      [Extraction.Trial.table source trials]

/-- What is printed about trying all patterns of a show on names. -/
def trialsShown (profile : ShowProfile) (names : List String) :
    Except (List Issue) (List ConsoleItem) :=
  if profile.patterns.isEmpty then
    .ok [ConsoleItem.warning s!"Show '{profile.name}' has no file patterns"]
  else do
    let shown ← profile.patterns.mapM fun fp => patternShown fp.pattern.source names
    return shown.flatten

end ShowProfile

/-! ## Batches -/

namespace BatchStats

def failedRow (s : BatchStats) : List (List String) :=
  if 0 < s.failed then [["Failed", s!"[red]{intText s.failed}[/red]"]] else []

def durationRow (duration : Option Binary64) : List (List String) :=
  match duration with
  | some seconds => if seconds.isZero then [] else [["Duration", s!"{seconds.fixedText 1}s"]]
  | none => []

def table (s : BatchStats) (duration : Option Binary64) : ConsoleTable :=
  { title := none
    columns := ["Metric", "Count"]
    rows := [["Total Files", intText s.total],
        ["Transcoded", s!"[green]{intText s.transcoded}[/green]"],
        ["Copied", s!"[blue]{intText s.copied}[/blue]"],
        ["Fallback Copies", s!"[yellow]{intText s.fallback}[/yellow]"],
        ["Skipped", s!"[yellow]{intText s.skipped}[/yellow]"]] ++
      s.failedRow ++ durationRow duration }

/-- The panel at the end of a batch. -/
def shown (s : BatchStats) : Except TimeFault ConsoleItem :=
  s.duration.map fun duration =>
    let (mark, colour, title) :=
      if s.failed = 0 then ("✓", "green", "Processing Complete")
      else ("✗", "yellow", "Processing Finished With Errors")
    .panel ⟨some s!"[bold {colour}]{mark} {title}[/bold {colour}]", colour,
      .table (s.table duration)⟩

end BatchStats

end BroadcastIntake
