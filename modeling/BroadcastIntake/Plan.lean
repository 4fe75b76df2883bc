import BroadcastIntake.Crash
import BroadcastIntake.Extraction
import BroadcastIntake.FilterChain
import BroadcastIntake.OutputName
import BroadcastIntake.Settings

/-!
# Plans

A plan says what is to be done with one file of a show, and is made without touching the file: the
pattern that reads its name, what was read, the date, the options, and where the output goes.
-/

namespace BroadcastIntake

/-- What is to be done with one file. -/
structure Plan where
  source : Path
  pattern : Option FilePattern
  extraction : Option Extraction
  date : Option BroadcastDate
  options : ProcessingOptions
  needsProcessing : Bool
  output : Path
  deriving DecidableEq, Repr

namespace Plan

/-- A path in a profile without the blanks, and then the quotes, that someone left around it. -/
def unquotedPath (path : Path) : Path :=
  let isQuote (c : Char) : Bool := c = '"' || c = '\''
  Path.ofString (Text.trimBy isQuote (Text.trim path.toString))

/-- Where the output of a show goes: to the directory that is asked for, else to the show's own,
else to the one that the settings name. -/
def outputDirectory (profile : ShowProfile) (settings : Settings) (asked : Option Path) : Path :=
  match asked with
  | some directory => directory
  | none =>
    match profile.outputDirectory with
    | some directory => unquotedPath directory
    | none => settings.outputBase

/-- The pattern that reads a file name: the first one that selects it, else the first of the
show. -/
def patternFor (source : Path) (profile : ShowProfile) : Logged (Option FilePattern) := do
  let selected ← FilePattern.find? source.name none profile.patterns
  return selected.or profile.patterns.head?

def extractionBy (source : Path) : Option FilePattern → Except Crash (Option Extraction)
  | none => .ok none
  | some fp =>
    match Extraction.ofPath fp.pattern source with
    | .ok extraction => .ok (some extraction)
    | .error issues => .error (.extraction issues)

def dateIn (extraction : Option Extraction) : Logged (Except Crash (Option BroadcastDate)) :=
  match extraction with
  | none => return .ok none
  | some e => do
    match ← e.date? with
    | .ok date => return .ok date
    | .error .textYear => return .error .textYear

/-- The name of the output file.  A file that passes through keeps its suffix in small letters. -/
def outputName (source : Path) (profile : ShowProfile) (date : Option BroadcastDate)
    (needsProcessing : Bool) (today : BroadcastDate) : String :=
  let extension := if needsProcessing then none else some (Text.lower source.suffix)
  OutputName.forSource source.name profile date extension today

/-- The plan for a file once its name has been read. -/
def ofReading (source : Path) (profile : ShowProfile) (settings : Settings)
    (asked : Option Path) (today : BroadcastDate) (pattern : Option FilePattern)
    (extraction : Option Extraction) (date : Option BroadcastDate) : Plan :=
  let options := ProcessingOptions.ofShow profile date today
  let name := outputName source profile date options.needsProcessing today
  { source, pattern, extraction, date, options
    needsProcessing := options.needsProcessing
    output := (outputDirectory profile settings asked).join (Path.ofString name) }

def ofFile (source : Path) (profile : ShowProfile) (settings : Settings) (asked : Option Path)
    (today : BroadcastDate) : Logged (Except Crash Plan) := do
  let pattern ← patternFor source profile
  match extractionBy source pattern with
  | .error crash => return .error crash
  | .ok extraction =>
    match ← dateIn extraction with
    | .error crash => return .error crash
    | .ok date =>
      return .ok (ofReading source profile settings asked today pattern extraction date)

def toJson (p : Plan) : Json :=
  .object [("source", .str p.source.toString),
    ("pattern", .ofOption (fun fp => .str fp.pattern.source) p.pattern),
    ("extraction", .ofOption Extraction.toJson p.extraction),
    ("extracted_date", .ofOption BroadcastDate.toJson p.date), ("options", p.options.toJson),
    ("needs_processing", .bool p.needsProcessing), ("output_path", .str p.output.toString)]

/-- The filters and the command that a plan leads to, once the file is probed; none when the file
passes through. -/
def describe (p : Plan) (settings : Settings) (probe : ProbeInfo) :
    Logged (Option FilterChain × List String) :=
  if p.needsProcessing then do
    let chain ←
      FilterChain.build p.options probe settings.fadeIn settings.fadeOut p.source.name
    return (some chain, chain.command settings.transcoder p.source p.output)
  else return (none, [])

end Plan

end BroadcastIntake
