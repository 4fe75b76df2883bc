import BroadcastIntake.Path
import BroadcastIntake.Text.Quoted

/-!
# File trees

A file tree maps locations, rows of names from the root, to directories and files.  A path is
looked up name by name from the working directory or the root: every name before the last has to
be a directory, and `..` goes one directory up.

Operations fail the way a file system does: each failure has a cause and the path it is about.
An operation that fails leaves the tree as it was, except that making a directory with all its
parents keeps the parents made before the failure.
-/

namespace BroadcastIntake

/-- The names from the root to a place in a file tree. -/
abbrev Location := List String

/-- What stands at a location. -/
inductive Entry where
  | directory
  | file (content : ByteArray)
  deriving Inhabited

-- Not derived: which comparison of contents a derived instance takes depends on what is imported.
instance : DecidableEq Entry
  | .directory, .directory => .isTrue rfl
  | .directory, .file _ => .isFalse nofun
  | .file _, .directory => .isFalse nofun
  | .file a, .file b =>
    @decidable_of_decidable_of_eq _ _ (ByteArray.instDecidableEq a b) (Entry.file.injEq a b).symm

/-- Why a file operation fails. -/
inductive FileFault where
  | missing
  | alreadyExists
  | notDirectory
  | isDirectory
  | nameTooLong
  /-- The path holds a character that no name may hold. -/
  | nullCharacter
  deriving DecidableEq, Repr

/-- A failed file operation: its cause and the path it is about. -/
structure FileError where
  fault : FileFault
  path : String
  deriving DecidableEq, Repr

namespace FileFault

/-- The number of a fault and its wording. -/
def code : FileFault → Nat × String
  | missing => (2, "No such file or directory")
  | alreadyExists => (17, "File exists")
  | notDirectory => (20, "Not a directory")
  | isDirectory => (21, "Is a directory")
  | nameTooLong => (36, "File name too long")
  | nullCharacter => (0, "embedded null byte")

/-- Whether the fault is found by the file system, and not already in the path's text. -/
def isSystem : FileFault → Bool
  | nullCharacter => false
  | _ => true

end FileFault

namespace FileError

def message (e : FileError) : String :=
  let (number, text) := e.fault.code
  if e.fault.isSystem then s!"[Errno {number}] {text}: {Text.quoted e.path}" else text

end FileError

/-- A tree of directories and files, and the directory from which relative paths are seen.  The
root is always a directory. -/
structure FileTree where
  workingDirectory : Location
  entries : List (Location × Entry)
  deriving Inhabited

namespace FileTree

/-! ## Locations -/

/-- The tree that holds nothing but its working directory and the directories above it. -/
def empty (workingDirectory : Location) : FileTree :=
  { workingDirectory
    entries := (List.range workingDirectory.length).map fun n =>
      (workingDirectory.take (n + 1), .directory) }

def get? (tree : FileTree) (location : Location) : Option Entry :=
  if location = [] then some .directory else tree.entries.lookup location

/-- Puts an entry at a location, replacing what stands there. -/
def put (location : Location) (entry : Entry) :
    List (Location × Entry) → List (Location × Entry)
  | [] => [(location, entry)]
  | (l, e) :: rest =>
    if l = location then (l, entry) :: rest else (l, e) :: put location entry rest

def set (tree : FileTree) (location : Location) (entry : Entry) : FileTree :=
  { tree with entries := put location entry tree.entries }

def erase (tree : FileTree) (location : Location) : FileTree :=
  { tree with entries := tree.entries.filter fun e => e.1 ≠ location }

/-- The most bytes that a name may have. -/
def nameLimit : Nat := 255

/-- The most bytes that the text of a path may have. -/
def pathLimit : Nat := 4095

/-- Follows names from a directory.  The result is the location of the last name with what stands
there, if anything. -/
def follow (tree : FileTree) : Location → List String → Except FileFault (Location × Option Entry)
  | here, [] => .ok (here, tree.get? here)
  | here, name :: rest =>
    if name = ".." then follow tree here.dropLast rest
    else if nameLimit < name.utf8ByteSize then .error .nameTooLong
    else
      let next := here ++ [name]
      match rest, tree.get? next with
      | [], found => .ok (next, found)
      | _ :: _, none => .error .missing
      | _ :: _, some (.file _) => .error .notDirectory
      | _ :: _, some .directory => follow tree next rest

/-- The location that a path denotes, with what stands there, if anything. -/
def locate (tree : FileTree) (path : Path) : Except FileFault (Location × Option Entry) :=
  if path.hasNull then .error .nullCharacter
  else if pathLimit < path.toString.utf8ByteSize then .error .nameTooLong
  else tree.follow (if path.isAbsolute then [] else tree.workingDirectory) path.names

/-- Whether the last name of a path goes up and so cannot be made or removed. -/
def goesUp (path : Path) : Bool :=
  path.names.isEmpty || path.name = ".."

/-! ## Asking -/

/-- What a path denotes, when something stands there; a path that leads through a missing directory
or through a file denotes nothing. -/
def stat? (tree : FileTree) (path : Path) : Except FileError (Option Entry) :=
  match tree.locate path with
  | .ok (_, found) => .ok found
  | .error .nameTooLong => .error ⟨.nameTooLong, path.toString⟩
  | .error _ => .ok none

def pathExists (tree : FileTree) (path : Path) : Except FileError Bool :=
  (tree.stat? path).map Option.isSome

def isFile (tree : FileTree) (path : Path) : Except FileError Bool :=
  (tree.stat? path).map fun found =>
    match found with
    | some (.file _) => true
    | _ => false

def isDirectory (tree : FileTree) (path : Path) : Except FileError Bool :=
  (tree.stat? path).map fun found => found = some .directory

/-! ## Reading and writing -/

def read (tree : FileTree) (path : Path) : Except FileError ByteArray :=
  match tree.locate path with
  | .ok (_, some (.file content)) => .ok content
  | .ok (_, some .directory) => .error ⟨.isDirectory, path.toString⟩
  | .ok (_, none) => .error ⟨.missing, path.toString⟩
  | .error fault => .error ⟨fault, path.toString⟩

/-- Writes a file, replacing its content or making it. -/
def write (tree : FileTree) (path : Path) (content : ByteArray) : Except FileError FileTree :=
  match tree.locate path with
  | .ok (_, some .directory) => .error ⟨.isDirectory, path.toString⟩
  | .ok (location, _) => .ok (tree.set location (.file content))
  | .error fault => .error ⟨fault, path.toString⟩

/-- Makes an empty file where nothing stands yet. -/
def createNew (tree : FileTree) (path : Path) : Except FileError FileTree :=
  match tree.locate path with
  | .ok (_, some _) => .error ⟨.alreadyExists, path.toString⟩
  | .ok (location, none) => .ok (tree.set location (.file ByteArray.empty))
  | .error fault => .error ⟨fault, path.toString⟩

def remove (tree : FileTree) (path : Path) : Except FileError FileTree :=
  match tree.locate path with
  | .ok (location, some (.file _)) => .ok (tree.erase location)
  | .ok (_, some .directory) => .error ⟨.isDirectory, path.toString⟩
  | .ok (_, none) => .error ⟨.missing, path.toString⟩
  | .error fault => .error ⟨fault, path.toString⟩

/-- Makes a directory where nothing stands yet. -/
def makeDirectory (tree : FileTree) (path : Path) : Except FileError FileTree :=
  match tree.locate path with
  | .ok (_, some _) => .error ⟨.alreadyExists, path.toString⟩
  | .ok (location, none) => .ok (tree.set location .directory)
  | .error fault => .error ⟨fault, path.toString⟩

/-- Makes a directory unless there is one already. -/
def ensureDirectory (tree : FileTree) (path : Path) : Except FileError FileTree :=
  match tree.makeDirectory path with
  | .ok made => .ok made
  | .error e =>
    if e.fault.isSystem && e.fault ≠ .missing then
      match tree.isDirectory path with
      | .ok true => .ok tree
      | _ => .error e
    else .error e

/-- Makes a directory, and the missing directories above it, unless there is one already.  The
second argument is the number of names that may still be missing. -/
def makeDirectoriesFrom (tree : FileTree) : Nat → Path → FileTree × Option FileError
  | 0, path =>
    match tree.ensureDirectory path with
    | .ok made => (made, none)
    | .error e => (tree, some e)
  | n + 1, path =>
    match tree.ensureDirectory path with
    | .ok made => (made, none)
    | .error e =>
      if e.fault = .missing && !path.names.isEmpty then
        match makeDirectoriesFrom tree n path.parent with
        | (made, some e) => (made, some e)
        | (made, none) =>
          match made.ensureDirectory path with
          | .ok made => (made, none)
          | .error e => (made, some e)
      else (tree, some e)

/-- Makes a directory, and the missing directories above it, unless there is one already. -/
def makeDirectories (tree : FileTree) (path : Path) : FileTree × Option FileError :=
  tree.makeDirectoriesFrom path.names.length path

/-! ## Listing and moving -/

/-- The names that lead from one location to another below it. -/
def below? : Location → Location → Option (List String)
  | [], rest => some rest
  | _ :: _, [] => none
  | a :: as, b :: bs => if a = b then below? as bs else none

/-- Moves what stands at a path, with everything below it, to a place where nothing stands. -/
def move (tree : FileTree) (source destination : Path) : Except FileError FileTree :=
  match tree.locate source, tree.locate destination with
  | .ok (old, some _), .ok (new, none) =>
    let moved (entry : Location × Entry) : Location × Entry :=
      match below? old entry.1 with
      | some names => (new ++ names, entry.2)
      | none => entry
    .ok { tree with entries := tree.entries.map moved }
  | .ok (_, none), _ => .error ⟨.missing, source.toString⟩
  | .error fault, _ => .error ⟨fault, source.toString⟩
  | _, .ok (_, some _) => .error ⟨.alreadyExists, destination.toString⟩
  | _, .error fault => .error ⟨fault, destination.toString⟩

/-- The files below a directory, each with the names that lead to it. -/
def filesUnder (tree : FileTree) (location : Location) : List (List String × ByteArray) :=
  tree.entries.filterMap fun (l, entry) =>
    match entry, below? location l with
    | .file content, some names => if names.isEmpty then none else some (names, content)
    | _, _ => none

/-- The paths of the files below a directory, none when there is no such directory. -/
def filesBelow (tree : FileTree) (directory : Path) : List Path :=
  match tree.locate directory with
  | .ok (location, some .directory) =>
    (tree.filesUnder location).map fun (names, _) =>
      { directory with names := directory.names ++ names }
  | _ => []

/-- Puts a file or a directory into a tree, with the directories above it.  What cannot be put there
is left out. -/
def plant (tree : FileTree) (path : Path) : Entry → FileTree
  | .directory => (tree.makeDirectories path).1
  | .file content =>
    let made := (tree.makeDirectories path.parent).1
    match made.write path content with
    | .ok written => written
    | .error _ => made

/-- Everything below the working directory, with the names that lead to it. -/
def contents (tree : FileTree) : List (List String × Entry) :=
  tree.entries.filterMap fun (l, entry) =>
    match below? tree.workingDirectory l with
    | some names => if names.isEmpty then none else some (names, entry)
    | none => none

/-- Everything below the working directory that did not stand there like this in an earlier tree. -/
def changesSince (earlier later : FileTree) : List (List String × Entry) :=
  let before := earlier.contents
  later.contents.filter fun e => before.lookup e.1 ≠ some e.2

/-- The files below the working directory of an earlier tree that are gone. -/
def missingSince (later earlier : FileTree) : List (List String) :=
  let after := later.contents
  (earlier.contents.filter fun e => e.2 ≠ .directory && (after.lookup e.1).isNone).map Prod.fst

end FileTree

end BroadcastIntake
