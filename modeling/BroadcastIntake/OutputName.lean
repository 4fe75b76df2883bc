import BroadcastIntake.Profile
import BroadcastIntake.Template

/-!
# Output names

The name of an output file comes from the naming rules of its show.  Characters that are not safe
in file names become underscores, and so do blanks; rows of underscores become one.  A name of
nothing but underscores is replaced by the name of the source.
-/

namespace BroadcastIntake

namespace OutputName

/-- The characters that some file systems refuse in names. -/
def unsafeChars : List Char := ['<', '>', ':', '"', '/', '\\', '|', '?', '*']

/-- A character, or an underscore in place of one that is unsafe or blank. -/
def safeChar (c : Char) : Char :=
  if unsafeChars.contains c || Text.isBlank c then '_' else c

/-- The characters with every row of underscores made one. -/
def collapse : List Char → List Char
  | [] => []
  | [c] => [c]
  | '_' :: '_' :: rest => collapse ('_' :: rest)
  | c :: rest => c :: collapse rest

def sanitizeChars (cs : List Char) : List Char :=
  collapse (cs.map safeChar)

/-- A text as a safe name. -/
def sanitize (s : String) : String :=
  String.ofList (sanitizeChars s.toList)

/-- The name of an output file without its extension, before the source's name steps in. -/
def stemFor (sourceStem : String) (profile : ShowProfile) (date? : Option BroadcastDate)
    (today : BroadcastDate) : String :=
  match profile.naming.outputPattern with
  | none | some "" => sanitize profile.name
  | some pattern =>
    let named := Template.replace "originalFilename" sourceStem pattern.toList
    sanitize (Template.fill (String.ofList named) (some profile.name) date? today)

/-- The name of the output file for a source file.  Without an extension given it is the format of
the show. -/
def forSource (source : String) (profile : ShowProfile) (date? : Option BroadcastDate)
    (extension? : Option String) (today : BroadcastDate) : String :=
  let extension := extension?.getD ("." ++ profile.audio.format)
  let sourceStem := (Path.ofString source).stem
  let name := stemFor sourceStem profile date? today
  if name.toList.all (· = '_') then sanitize sourceStem ++ extension else name ++ extension

end OutputName

end BroadcastIntake
