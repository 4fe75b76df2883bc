import BroadcastIntake.Child.Flow
import BroadcastIntake.FileTree

/-!
# Small programs

The small programs that every system has, as functions: from words, an input and a file tree to an
exit status, an output, and a time.  Output may be endless; then the program runs as long as
someone reads it.
-/

namespace BroadcastIntake

namespace Child

/-- What a program gets: its words, its input, and the file tree. -/
structure ProgramCall where
  words : List String
  input : Flow
  tree : FileTree

/-- What comes of a program: its status, its output and errors, and how many microseconds it takes,
unless it never ends. -/
structure ProgramRun where
  status : Nat
  output : Flow
  errors : String
  micros : Option Nat

abbrev Program := ProgramCall → ProgramRun

namespace ProgramRun

/-- A program that ends at once and prints nothing. -/
def quiet (status : Nat) : ProgramRun := ⟨status, .empty, "", some 0⟩

def prints (content : ByteArray) : ProgramRun := ⟨0, .bytes content, "", some 0⟩

def printsText (s : String) : ProgramRun := prints s.toUTF8

def fails (status : Nat) (message : String) : ProgramRun := ⟨status, .empty, message, some 0⟩

/-- A program that is not called as it should be. -/
def misuse (program account : String) : ProgramRun :=
  fails 1 s!"{program}: {account}\nTry '{program} --help' for more information.\n"

/-- A program that never ends. -/
def stays : ProgramRun := ⟨0, .empty, "", none⟩

end ProgramRun

/-! ## Reading -/

/-- The content of a device that is read like a file. -/
def device? (name : String) : Option Flow :=
  [("/dev/null", .empty), ("/dev/zero", .endless ByteArray.empty ⟨#[0]⟩)].lookup name

namespace ProgramCall

/-- What a program reads from a word; a hyphen stands for its input. -/
def readWord (call : ProgramCall) (word : String) : Except FileFault Flow :=
  if word = "-" then .ok call.input
  else
    match device? word with
    | some flow => .ok flow
    | none =>
      match call.tree.read (Path.ofString word) with
      | .ok content => .ok (.bytes content)
      | .error e => .error e.fault

/-- What a program reads from words one after the other; `account` tells of words that cannot be
read. -/
def readWords (account : String → FileFault → String) (call : ProgramCall) :
    List String → Flow × String
  | [] => (.empty, "")
  | word :: rest =>
    let (flow, errors) := readWords account call rest
    match call.readWord word with
    | .ok first => (first.append flow, errors)
    | .error fault => (flow, account word fault ++ errors)

/-- What a program reads: the files that words name, or its input when there are none. -/
def readAll (program : String) (call : ProgramCall) (words : List String) : Flow × String :=
  call.readWords (fun word fault => s!"{program}: {word}: {fault.code.2}\n")
    (if words.isEmpty then ["-"] else words)

/-- The words of a program that are options, and the others. -/
def splitOptions (call : ProgramCall) : List String × List String :=
  call.words.partition fun word => 1 < word.length && word.startsWith "-"

end ProgramCall

def statusOf (errors : String) : Nat :=
  if errors = "" then 0 else 1

/-- A program that turns all that it reads into something else. -/
def filterProgram (name : String) (change : List UInt8 → List UInt8) (words : List String)
    (call : ProgramCall) : ProgramRun :=
  match call.readAll name words with
  | (.endless _ _, _) => .stays
  | (.bytes content, errors) =>
    ⟨statusOf errors, .bytes ⟨(change content.toList).toArray⟩, errors, some 0⟩

end Child

end BroadcastIntake
