import BroadcastIntake.Pattern.Basic
import BroadcastIntake.Schema.Scalar

/-!
# Show profiles

A show profile says how the files of one show are recognised and worked on: the patterns of their
names, where they go, how they are trimmed and encoded, and the templates of their tags and names.
Profiles are read from JSON; every member but the name has a value of its own when it is left out,
and keys that mean nothing are refused.
-/

namespace BroadcastIntake

/-- Where the files of a pattern come from. -/
inductive PatternKind where
  | watch
  | ftp
  deriving DecidableEq, Repr

namespace PatternKind

def name : PatternKind → String
  | watch => "watch"
  | ftp => "ftp"

def ofName? (name : String) : Option PatternKind :=
  [watch, ftp].find? fun kind => kind.name = name

end PatternKind

/-- A pattern that selects and reads incoming files. -/
structure FilePattern where
  pattern : Pattern
  kind : PatternKind
  watchPath : Option Path
  deriving DecidableEq, Repr

/-- Where a recording starts and ends, in seconds, and whether it is faded. -/
structure TrimSettings where
  start : Binary64
  stop : Binary64
  fadeIn : Bool
  fadeOut : Bool
  deriving DecidableEq, Repr

/-- How a recording is encoded: the container or codec, the target loudness, the sample rate in
hertz and the bit rate in kilobits per second. -/
structure AudioSettings where
  format : String
  level : Option Binary64
  sampleRate : Option Int
  bitRate : Option Int
  deriving DecidableEq, Repr

/-- The templates of the tags. -/
structure TagTemplates where
  title : String
  artist : String
  album : String
  genre : String
  year : String
  comment : String
  deriving DecidableEq, Repr

/-- How output files are named. -/
structure NamingRules where
  outputPattern : Option String
  deriving DecidableEq, Repr

/-- A show profile. -/
structure ShowProfile where
  name : String
  id : Option String
  enabled : Bool
  patterns : List FilePattern
  outputDirectory : Option Path
  trim : TrimSettings
  audio : AudioSettings
  tags : TagTemplates
  naming : NamingRules
  deriving DecidableEq, Repr

namespace FilePattern

def checkPatternText (value : Json) : Checked Pattern :=
  (Scalar.text value).andThen fun source =>
    match Pattern.compile source with
    | .ok p => .valid p
    | .error e => .issue (.rule e.message)

def checkKind (value : Json) : Checked PatternKind :=
  (Scalar.text value).andThen fun name =>
    match PatternKind.ofName? name with
    | some kind => .valid kind
    | none => .issue (.rule "Pattern type must be one of: watch, ftp")

def check : Json → Checked FilePattern :=
  checkRecord fun members =>
    (fun pattern kind path _ => FilePattern.mk pattern kind path)
      <$> members.required "pattern" checkPatternText
      <*> members.optional "type" .watch checkKind
      <*> members.optional "watch_path" none (Scalar.orNull Scalar.path)
      <*> members.noOthers ["pattern", "type", "watch_path"]

def toJson (fp : FilePattern) : Json :=
  .object [("pattern", .str fp.pattern.source), ("type", .str fp.kind.name),
    ("watch_path", .ofOption (fun path => .str path.toString) fp.watchPath)]

/-- The first file pattern that selects a name, among those of one kind if a kind is given. -/
def find? (filename : String) (kind? : Option String) :
    List FilePattern → Logged (Option FilePattern)
  | [] => return none
  | fp :: rest => do
    if kind?.all fun kind => kind = "" || kind = fp.kind.name then
      if ← fp.pattern.select filename then return some fp else find? filename kind? rest
    else find? filename kind? rest

end FilePattern

namespace TrimSettings

/-- The settings that leave a recording as it is. -/
def none : TrimSettings := ⟨.zero, .zero, false, false⟩

def check : Json → Checked TrimSettings :=
  checkRecord fun members =>
    (fun start stop fadeIn fadeOut _ => TrimSettings.mk start stop fadeIn fadeOut)
      <$> members.optional "start_seconds" .zero (Scalar.numberAtLeast .zero)
      <*> members.optional "end_seconds" .zero (Scalar.numberAtLeast .zero)
      <*> members.optional "fade_in" false Scalar.flag
      <*> members.optional "fade_out" false Scalar.flag
      <*> members.noOthers ["start_seconds", "end_seconds", "fade_in", "fade_out"]

def toJson (t : TrimSettings) : Json :=
  .object [("start_seconds", .float t.start), ("end_seconds", .float t.stop),
    ("fade_in", .bool t.fadeIn), ("fade_out", .bool t.fadeOut)]

end TrimSettings

namespace AudioSettings

/-- The format that keeps the recording as it is. -/
def passThroughFormat : String := "wav"

/-- The settings that leave a recording as it is. -/
def none : AudioSettings := ⟨passThroughFormat, .none, .none, .none⟩

/-- A format without blanks around it, in small letters and without leading dots. -/
def normalFormat (format : String) : String :=
  Text.trimLeftBy (· = '.') (Text.lower (Text.trim format))

def checkFormat (value : Json) : Checked String :=
  (Scalar.text value).andThen fun format =>
    if normalFormat format = "" then .issue (.rule "Output format must not be empty")
    else .valid (normalFormat format)

/-- Checks a rate: a positive whole number, or none. -/
def checkRate (value : Json) : Checked (Option Int) :=
  (Scalar.orNull Scalar.whole value).andThen fun rate? =>
    if rate?.all (0 < ·) then .valid rate? else .issue (.rule "Must be positive")

def check : Json → Checked AudioSettings :=
  checkRecord fun members =>
    (fun format level sampleRate bitRate _ => AudioSettings.mk format level sampleRate bitRate)
      <$> members.optional "output_format" passThroughFormat checkFormat
      <*> members.optional "normalization_level" .none (Scalar.orNull Scalar.number)
      <*> members.optional "sample_rate" .none checkRate
      <*> members.optional "bit_rate" .none checkRate
      <*> members.noOthers ["output_format", "normalization_level", "sample_rate", "bit_rate"]

def toJson (a : AudioSettings) : Json :=
  .object [("output_format", .str a.format), ("normalization_level", .ofOption .float a.level),
    ("sample_rate", .ofOption .int a.sampleRate), ("bit_rate", .ofOption .int a.bitRate)]

end AudioSettings

namespace TagTemplates

def none : TagTemplates := ⟨"", "", "", "", "", ""⟩

def fields (t : TagTemplates) : List (String × String) :=
  [("title", t.title), ("artist", t.artist), ("album", t.album), ("genre", t.genre),
   ("year", t.year), ("comment", t.comment)]

def check : Json → Checked TagTemplates :=
  checkRecord fun members =>
    (fun title artist album genre year comment _ =>
        TagTemplates.mk title artist album genre year comment)
      <$> members.optional "title" "" Scalar.text
      <*> members.optional "artist" "" Scalar.text
      <*> members.optional "album" "" Scalar.text
      <*> members.optional "genre" "" Scalar.text
      <*> members.optional "year" "" Scalar.text
      <*> members.optional "comment" "" Scalar.text
      <*> members.noOthers ["title", "artist", "album", "genre", "year", "comment"]

def toJson (t : TagTemplates) : Json :=
  .ofTextMembers t.fields

end TagTemplates

namespace NamingRules

/-- The rules that name a file after its show. -/
def none : NamingRules := ⟨.none⟩

def check : Json → Checked NamingRules :=
  checkRecord fun members =>
    (fun outputPattern _ => NamingRules.mk outputPattern)
      <$> members.optional "output_pattern" .none (Scalar.orNull Scalar.text)
      <*> members.noOthers ["output_pattern"]

def toJson (n : NamingRules) : Json :=
  .object [("output_pattern", .ofOption .str n.outputPattern)]

end NamingRules

namespace ShowProfile

/-- The profile of a show that says nothing but its name. -/
def named (name : String) : ShowProfile :=
  ⟨name, none, true, [], none, TrimSettings.none, AudioSettings.none, TagTemplates.none,
    NamingRules.none⟩

/-- Checks the name of a show: a text that is not blank. -/
def checkName (value : Json) : Checked String :=
  (Scalar.text value).andThen fun name =>
    if Text.isBlankText name then .issue (.rule "Show name must not be empty") else .valid name

def check : Json → Checked ShowProfile :=
  checkRecord fun members =>
    (fun name id enabled patterns outputDirectory trim audio tags naming _ =>
        ShowProfile.mk name id enabled patterns outputDirectory trim audio tags naming)
      <$> members.required "name" checkName
      <*> members.optional "id" none (Scalar.orNull Scalar.text)
      <*> members.optional "enabled" true Scalar.flag
      <*> members.optional "file_patterns" [] (Scalar.list FilePattern.check)
      <*> members.optional "output_directory" none (Scalar.orNull Scalar.path)
      <*> members.optional "trim_settings" TrimSettings.none TrimSettings.check
      <*> members.optional "audio_settings" AudioSettings.none AudioSettings.check
      <*> members.optional "metadata" TagTemplates.none TagTemplates.check
      <*> members.optional "file_naming" NamingRules.none NamingRules.check
      <*> members.noOthers
        ["name", "id", "enabled", "file_patterns", "output_directory", "trim_settings",
         "audio_settings", "metadata", "file_naming"]

def toJson (p : ShowProfile) : Json :=
  .object [("name", .str p.name), ("id", .ofOption .str p.id), ("enabled", .bool p.enabled),
    ("file_patterns", .list (p.patterns.map FilePattern.toJson)),
    ("output_directory", .ofOption (fun path => .str path.toString) p.outputDirectory),
    ("trim_settings", p.trim.toJson), ("audio_settings", p.audio.toJson),
    ("metadata", p.tags.toJson), ("file_naming", p.naming.toJson)]

end ShowProfile

end BroadcastIntake
