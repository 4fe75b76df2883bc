import BroadcastIntake.Text.Blank
import BroadcastIntake.Text.Order

/-!
# Paths

A path is a row of names behind no slash, one slash or exactly two.  Reading a text drops empty
names and the name `.`, and keeps `..`; so two texts that differ only there are the same path.

The last name of a path splits at its last dot into stem and suffix, unless that dot is the first
or the last character of the name: then all of it is the stem.
-/

namespace BroadcastIntake

/-- A path: the number of leading slashes, which is at most two, and the names. -/
structure Path where
  slashes : Nat
  names : List String
  deriving DecidableEq, Repr, Inhabited

namespace Path

/-- The number of slashes that stand for the given number of leading slashes: two are kept, and any
other positive number counts as one. -/
def slashCount (n : Nat) : Nat :=
  if n = 0 then 0 else if n = 2 then 2 else 1

/-- Reads a path from its text. -/
def ofString (s : String) : Path :=
  { slashes := slashCount (s.toList.takeWhile (· = '/')).length
    names := (Text.splitOnChar '/' s).filter fun name => name ≠ "" && name ≠ "." }

/-- The text of a path; the path without names and slashes is a dot. -/
def toString (p : Path) : String :=
  if p.slashes = 0 && p.names.isEmpty then "."
  else String.ofList (List.replicate p.slashes '/') ++ String.intercalate "/" p.names

instance : ToString Path := ⟨toString⟩

/-- The path of the working directory. -/
def current : Path := ⟨0, []⟩

/-- Whether a path starts at the root. -/
def isAbsolute (p : Path) : Bool :=
  p.slashes ≠ 0

/-- Whether a null character, which no file system takes, stands in a path. -/
def hasNull (p : Path) : Bool :=
  p.names.any fun name => name.toList.contains '\x00'

/-- The last name of a path, and the empty text when it has none. -/
def name (p : Path) : String :=
  p.names.getLast?.getD ""

/-- The path without its last name. -/
def parent (p : Path) : Path :=
  { p with names := p.names.dropLast }

/-- The second path as seen from the first: one below the other unless the second is absolute. -/
def join (p q : Path) : Path :=
  if q.isAbsolute then q else { p with names := p.names ++ q.names }

/-- The characters of a name before and from its last dot on.  The second part is empty when there
is no dot, or it is the first or the last character. -/
def splitName (cs : List Char) : List Char × List Char :=
  let afterDot := (cs.reverse.takeWhile (· ≠ '.')).length
  let stem := cs.take (cs.length - afterDot - 1)
  if afterDot = 0 || afterDot = cs.length || stem.isEmpty then (cs, [])
  else (stem, cs.drop (cs.length - afterDot - 1))

/-- The part of a name before its suffix. -/
def stemOf (name : String) : String :=
  String.ofList (splitName name.toList).1

/-- The suffix of a name, with its dot, or the empty text. -/
def suffixOf (name : String) : String :=
  String.ofList (splitName name.toList).2

/-- The last name of a path without its suffix. -/
def stem (p : Path) : String :=
  stemOf p.name

/-- The suffix of the last name of a path, with its dot, or the empty text. -/
def suffix (p : Path) : String :=
  suffixOf p.name

def withName (p : Path) (name : String) : Path :=
  { p with names := p.names.dropLast ++ [name] }

/-- The names of a path, the leading slashes being a name of their own. -/
def sortKey (p : Path) : List String :=
  if p.slashes = 0 then p.names
  else String.ofList (List.replicate p.slashes '/') :: p.names

/-- Whether one path comes before another or is equal to it: name by name. -/
def le (p q : Path) : Bool :=
  Text.wordsLe p.sortKey q.sortKey

/-- Paths in increasing order. -/
def sort (paths : List Path) : List Path :=
  paths.mergeSort le

/-- The names of an absolute path after every `..` has taken away the name before it. -/
def resolveNames (names : List String) : List String :=
  (names.foldl (fun above name => if name = ".." then above.tail else name :: above) []).reverse

/-- The absolute path that a path denotes, seen from the directory with the given names. -/
def resolve (directory : List String) (p : Path) : Path :=
  ⟨1, resolveNames (if p.isAbsolute then p.names else directory ++ p.names)⟩

end Path

end BroadcastIntake
