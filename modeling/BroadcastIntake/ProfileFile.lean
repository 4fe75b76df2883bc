import BroadcastIntake.FileTree
import BroadcastIntake.Json.Reader
import BroadcastIntake.Profile
import BroadcastIntake.Text.Lines

/-!
# Profile files

Reads a show profile from a JSON file.  What goes wrong with the file or its text is told apart
from what is wrong with the profile in it.
-/

namespace BroadcastIntake

/-- Why a show profile cannot be loaded. -/
inductive ProfileFault where
  | missing
  | unreadableFile (error : FileError)
  | unreadableText (error : JsonError)
  | invalid (issues : List Issue)
  deriving DecidableEq, Repr

/-- A show profile that cannot be loaded: its path and why. -/
structure ProfileError where
  path : Path
  fault : ProfileFault
  deriving DecidableEq, Repr

/-- What can keep a profile file from being looked at as a profile at all. -/
inductive ProfileLoadError where
  | profile (error : ProfileError)
  /-- The path of the file is not one of the file system. -/
  | unusablePath (error : FileError)
  /-- The file is not a text in UTF-8. -/
  | notText
  /-- The text is nested too deeply, or holds a number that is not read for its size. -/
  | limit (error : JsonError)
  deriving DecidableEq, Repr

namespace ProfileError

/-- The wording of an error.  Issues of the profile itself are not listed in it. -/
def message (e : ProfileError) : String :=
  match e.fault with
  | .missing => s!"Show profile not found: {e.path}"
  | .unreadableFile error => s!"Cannot read show profile {e.path}: {error.message}"
  | .unreadableText error => s!"Cannot read show profile {e.path}: {error.message}"
  | .invalid _ => s!"Invalid show profile {e.path}:"

/-- All there is to say about an error: its wording, and a line for every issue of the profile. -/
def account (e : ProfileError) : String :=
  match e.fault with
  | .invalid issues => String.intercalate "\n" (e.message :: issues.map Issue.line)
  | _ => e.message

end ProfileError

/-- The wording of what keeps a profile from being loaded. -/
def ProfileLoadError.message : ProfileLoadError → String
  | profile e => e.account
  | unusablePath e => e.message
  | notText => "the show profile is not a text"
  | limit e => e.message

namespace ShowProfile

def ofText (path : Path) (text : String) : Except ProfileLoadError ShowProfile :=
  match Json.read text with
  | .error e =>
    if e.fault.isSyntactic then .error (.profile ⟨path, .unreadableText e⟩) else .error (.limit e)
  | .ok value =>
    match check value with
    | .valid profile => .ok profile
    | .invalid issues => .error (.profile ⟨path, .invalid issues⟩)

def load (tree : FileTree) (path : Path) : Except ProfileLoadError ShowProfile :=
  match tree.read path with
  | .error e =>
    match e.fault with
    | .missing => .error (.profile ⟨path, .missing⟩)
    | .nullCharacter => .error (.unusablePath e)
    | _ => .error (.profile ⟨path, .unreadableFile e⟩)
  | .ok content =>
    match Text.ofFile? content with
    | none => .error .notText
    | some text => ofText path text

end ShowProfile

end BroadcastIntake
