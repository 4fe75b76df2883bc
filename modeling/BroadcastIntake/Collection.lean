import BroadcastIntake.FileTree
import BroadcastIntake.Profile
import BroadcastIntake.Settings

/-!
# Collecting the files of a show

The files of a show are those at or below a place in the file tree whose suffix is taken and whose
name is selected by a pattern of the show.  A show without patterns takes every name.
-/

namespace BroadcastIntake

namespace Collection

def logger : String := "radio_ingest.parallel_processor"

/-- The files at a place: the file itself, or all files below the directory. -/
def candidates (tree : FileTree) (root : Path) : Except FileError (List Path) :=
  (tree.isFile root).map fun isFile => if isFile then [root] else tree.filesBelow root

def hasSuffix (settings : Settings) (file : Path) : Bool :=
  settings.extensions.contains (Text.lower file.suffix)

def takesName (profile : ShowProfile) (file : Path) : Logged Bool :=
  if profile.patterns.isEmpty then return true
  else do
    match ← FilePattern.find? file.name none profile.patterns with
    | some _ => return true
    | none =>
      Logged.tell .debug logger
        s!"File {file.name} doesn't match any pattern for show {profile.name}"
      return false

/-- The files that a show takes out of the given ones. -/
def choose (profile : ShowProfile) (settings : Settings) : List Path → Logged (List Path)
  | [] => return []
  | file :: rest => do
    let takes ← if hasSuffix settings file then takesName profile file else pure false
    let others ← choose profile settings rest
    return if takes then file :: others else others

/-- The files of a show at a place, in order. -/
def collect (profile : ShowProfile) (settings : Settings) (root : Path) (tree : FileTree) :
    Logged (Except FileError (List Path)) :=
  match candidates tree root with
  | .error e => return .error e
  | .ok files => do return .ok (Path.sort (← choose profile settings files))

end Collection

end BroadcastIntake
