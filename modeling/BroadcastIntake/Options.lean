import BroadcastIntake.Profile
import BroadcastIntake.Template

/-!
# Processing options

What is to be done with one file, resolved from the profile of its show.  A file of which nothing
is asked passes through: it is copied byte for byte.
-/

namespace BroadcastIntake

/-- What is to be done with one file. -/
structure ProcessingOptions where
  trimStart : Option Binary64
  trimEnd : Option Binary64
  format : String
  level : Option Binary64
  sampleRate : Option Int
  bitRate : Option Int
  fadeIn : Bool
  fadeOut : Bool
  tags : List (String × String)
  date : Option BroadcastDate
  deriving DecidableEq, Repr

/-- The tags that the templates of a show give for one file. -/
def TagTemplates.resolve (t : TagTemplates) (showName : Option String)
    (date? : Option BroadcastDate) (today : BroadcastDate) : List (String × String) :=
  t.fields.map fun (field, template) => (field, Template.fill template showName date? today)

namespace ProcessingOptions

def trimPoint (seconds : Binary64) : Option Binary64 :=
  if 0 < seconds then some seconds else none

def ofShow (profile : ShowProfile) (date? : Option BroadcastDate) (today : BroadcastDate) :
    ProcessingOptions :=
  { trimStart := trimPoint profile.trim.start
    trimEnd := trimPoint profile.trim.stop
    format := profile.audio.format
    level := profile.audio.level
    sampleRate := profile.audio.sampleRate
    bitRate := profile.audio.bitRate
    fadeIn := profile.trim.fadeIn
    fadeOut := profile.trim.fadeOut
    tags := profile.tags.resolve (some profile.name) date? today
    date := date? }

/-- Whether anything is asked for that takes more than a copy. -/
def needsProcessing (o : ProcessingOptions) : Bool :=
  o.trimStart.isSome || o.trimEnd.isSome || o.format ≠ AudioSettings.passThroughFormat ||
    o.level.isSome || o.fadeIn || o.fadeOut

def check : Json → Checked ProcessingOptions :=
  checkRecord fun members =>
    ProcessingOptions.mk
      <$> members.optional "trim_start" none (Scalar.orNull Scalar.number)
      <*> members.optional "trim_end" none (Scalar.orNull Scalar.number)
      <*> members.optional "output_format" AudioSettings.passThroughFormat Scalar.text
      <*> members.optional "normalization_level" none (Scalar.orNull Scalar.number)
      <*> members.optional "sample_rate" none (Scalar.orNull Scalar.whole)
      <*> members.optional "bit_rate" none (Scalar.orNull Scalar.whole)
      <*> members.optional "fade_in" false Scalar.flag
      <*> members.optional "fade_out" false Scalar.flag
      <*> members.optional "metadata" [] (Scalar.mapping Scalar.text)
      <*> members.optional "extracted_date" none (Scalar.orNull BroadcastDate.check)

def toJson (o : ProcessingOptions) : Json :=
  .object [("trim_start", .ofOption .float o.trimStart), ("trim_end", .ofOption .float o.trimEnd),
    ("output_format", .str o.format), ("normalization_level", .ofOption .float o.level),
    ("sample_rate", .ofOption .int o.sampleRate), ("bit_rate", .ofOption .int o.bitRate),
    ("fade_in", .bool o.fadeIn), ("fade_out", .bool o.fadeOut),
    ("metadata", .ofTextMembers o.tags),
    ("extracted_date", .ofOption BroadcastDate.toJson o.date)]

end ProcessingOptions

end BroadcastIntake
