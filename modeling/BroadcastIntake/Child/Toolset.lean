import BroadcastIntake.Child.Program.Filtering
import BroadcastIntake.Child.Program.Printing
import BroadcastIntake.Child.Program.Testing

/-!
# The programs of a system
-/

namespace BroadcastIntake

namespace Child

def programs : List (String × Program) :=
  [("true", fun _ => .quiet 0), ("false", fun _ => .quiet 1), ("echo", echo), ("printf", printf),
   ("yes", yes), ("seq", seq), ("pwd", pwd), ("basename", basename), ("dirname", dirname),
   ("ls", ls), ("cat", cat), ("head", head), ("tail", tail), ("sort", sort), ("uniq", uniq),
   ("tac", tac), ("rev", rev), ("wc", wc), ("tr", tr), ("sleep", sleep), ("test", test),
   ("[", bracketTest)]

/-- The programs that read their input when no file is named. -/
def readers : List String :=
  ["cat", "head", "tail", "sort", "uniq", "tac", "rev", "wc", "tr"]

def programDirectories : List (List String) := [["bin"], ["usr", "bin"]]

/-- The name of the program that a word with a slash denotes, when it is one of the system's. -/
def systemName? (word : String) : Option String :=
  let path := Path.ofString word
  if path.isAbsolute && programDirectories.contains path.parent.names then some path.name
  else none

def programName? (word : String) : Option String :=
  if word.toList.contains '/' then systemName? word else some word

end Child

end BroadcastIntake
