import BroadcastIntake.Child.Shell.Basic
import BroadcastIntake.Text.Decode

/-!
# Commands of a shell

The commands that a shell carries out itself, and how it runs programs.
-/

namespace BroadcastIntake

namespace Child

namespace Shell

/-! ## Signals -/

def signals : List (String × Nat) :=
  [("HUP", 1), ("INT", 2), ("QUIT", 3), ("ABRT", 6), ("KILL", 9), ("USR1", 10), ("SEGV", 11),
   ("USR2", 12), ("PIPE", 13), ("ALRM", 14), ("TERM", 15)]

/-- What is told of a program that a signal has ended. -/
def signalAccount? (signal : Nat) : Option String :=
  [(1, "Hangup"), (3, "Quit"), (6, "Aborted"), (9, "Killed"), (10, "User defined signal 1"),
   (11, "Segmentation fault"), (12, "User defined signal 2"), (14, "Alarm clock"),
   (15, "Terminated")].lookup signal

/-- The signal that a word names, with or without `SIG`. -/
def signalOf? (word : String) : Option Nat :=
  let name := if word.startsWith "SIG" then (word.drop 3).toString else word
  (signals.lookup name).or word.toNat?

/-- The name under which a trap for a signal is kept. -/
def trapName (word : String) : String :=
  match signalOf? word with
  | some 0 => "EXIT"
  | some signal => ((signals.find? (·.2 = signal)).map Prod.fst).getD word
  | none => word

/-- The signal and the process that the words of `kill` name. -/
def killTarget? : List String → Option (Nat × String)
  | ["-s", signal, process] => (signalOf? signal).map (·, process)
  | [option, process] =>
    if option.startsWith "-" then (signalOf? (option.drop 1).toString).map (·, process) else none
  | [process] => some (15, process)
  | _ => none

/-- What comes of a command of the shell: its state, and what it runs next, if anything. -/
abbrev Carried := Shell × Option String

/-- Sends a signal to the shell itself, which may have a trap for it. -/
def receive (s : Shell) (signal : Nat) : Carried :=
  match if signal = 9 then none else s.traps.lookup (trapName (toString signal)) with
  | some "" => (s.withStatus 0, none)
  | some action => (s.withStatus 0, some action)
  | none =>
    if signal = 0 then (s.withStatus 0, none) else ({ s with ending := some (-signal) }, none)

/-- Sends a signal. -/
def kill (s : Shell) (line : Nat) (sink : Sink) (words : List String) : Carried :=
  match killTarget? words with
  | some (signal, process) =>
    if process = processNumber then s.receive signal
    else if process = backgroundNumber then
      ({ s with backgroundMicros := s.micros, status := 0 }, none)
    else (s.complain line sink 1 "kill: No such process\n", none)
  | none => (s.complain line sink 2 "kill: Illegal option", none)

/-! ## Other commands -/

def exit (s : Shell) (line : Nat) (sink : Sink) (words : List String) : Shell :=
  match words with
  | [] => { s with ending := some s.status }
  | word :: _ =>
    if !word.isEmpty && word.toList.all Char.isDigit then
      { s with ending := some ((Text.digitsValue word.toList % 256 : Nat) : Int) }
    else s.giveUp line sink s!"exit: Illegal number: {word}"

def changeDirectory (s : Shell) (line : Nat) (sink : Sink) (words : List String) : Shell :=
  match words with
  | [] => s.withStatus 0
  | word :: _ =>
    match s.tree.locate (Path.ofString word) with
    | .ok (location, some .directory) =>
      { s with tree := { s.tree with workingDirectory := location }, status := 0 }
    | _ => s.complain line sink 2 s!"cd: can't cd to {word}"

/-- Drops the first parameters. -/
def shift (s : Shell) (line : Nat) (sink : Sink) (words : List String) : Shell :=
  let count := (words.head?.bind String.toNat?).getD 1
  if s.parameters.length < count then s.giveUp line sink "shift: can't shift that many"
  else { s with parameters := s.parameters.drop count, status := 0 }

/-- Sets options and parameters. -/
def setOptions (s : Shell) : List String → Shell
  | [] => s.withStatus 0
  | "--" :: words => { s with parameters := words, status := 0 }
  | word :: words =>
    if word.startsWith "-" then
      setOptions { s with endsOnFailure := s.endsOnFailure || word.toList.contains 'e' } words
    else if word.startsWith "+" then
      setOptions { s with endsOnFailure := s.endsOnFailure && !word.toList.contains 'e' } words
    else { s with parameters := word :: words, status := 0 }

/-- Makes names known to programs, perhaps with new values. -/
def exportNames (s : Shell) (words : List String) : Shell :=
  words.foldl
    (fun s word =>
      let name := word.toList.takeWhile (· ≠ '=')
      let exported := { s with exported := String.ofList name :: s.exported }
      match word.toList.drop name.length with
      | _ :: value => exported.assign (String.ofList name) (String.ofList value)
      | [] => exported)
    (s.withStatus 0)

/-- The values for names: the words of a line in turn, and the rest of it for the last name. -/
def readValues : List String → List Char → List (String × String)
  | [], _ => []
  | [name], cs => [(name, String.ofList (Text.Chars.trim (fun c => c = ' ' || c = '\t') cs))]
  | name :: names, cs =>
    let isBlank (c : Char) : Bool := c = ' ' || c = '\t'
    let start := cs.dropWhile isBlank
    (name, String.ofList (start.takeWhile fun c => !isBlank c)) ::
      readValues names (start.dropWhile fun c => !isBlank c)

def readLine (s : Shell) (names : List String) : Shell :=
  let (line, input) :=
    match s.input with
    | .bytes content =>
      let (line, rest) := Flow.splitLine content.toList
      (line, Flow.bytes ⟨rest.toArray⟩)
    | .endless start unit => ((Flow.splitLine start.toList).1, .endless ByteArray.empty unit)
  let isWhole := line.getLast? = some Flow.lineEnd
  let text := Text.decode ⟨(if isWhole then line.dropLast else line).toArray⟩
  let values := readValues names text.toList
  let s := values.foldl (fun s (name, value) => s.assign name value) { s with input }
  s.withStatus (if isWhole then 0 else 1)

/-- Keeps what is to be run when signals come. -/
def setTraps (s : Shell) (words : List String) : Shell :=
  match words with
  | action :: names =>
    let traps := names.map fun name => (trapName name, action)
    { s with traps := traps ++ s.traps, status := 0 }
  | [] => s.withStatus 0

def readScriptFile (s : Shell) (line : Nat) (sink : Sink) (word : String) : Carried :=
  match s.tree.read (Path.ofString word) with
  | .ok content => (s.withStatus 0, some (Text.decode content))
  | .error _ => (s.giveUp line sink s!".: cannot open {word}: No such file", none)

/-- Carries out a command of the shell itself; none when the name is not one of them. -/
def carryOut? (s : Shell) (line : Nat) (sink : Sink) (name : String) (words : List String) :
    Option Carried :=
  match name with
  | ":" => some (s.withStatus 0, none)
  | "exit" => some (s.exit line sink words, none)
  | "kill" => some (s.kill line sink words)
  | "cd" => some (s.changeDirectory line sink words, none)
  | "shift" => some (s.shift line sink words, none)
  | "set" => some (s.setOptions words, none)
  | "export" => some (s.exportNames words, none)
  | "unset" =>
    some ({ s with bindings := s.bindings.filter (!words.contains ·.1), status := 0 }, none)
  | "read" => some (s.readLine words, none)
  | "eval" => some (s.withStatus 0, some (String.intercalate " " words))
  | "wait" => some ({ s with micros := later s.micros s.backgroundMicros, status := 0 }, none)
  | "trap" => some (s.setTraps words, none)
  | "return" =>
    let status := (words.head?.bind String.toNat?).getD s.status
    some ({ s with leaving := some .back, status }, none)
  | "." => some (s.readScriptFile line sink (words.headD ""))
  | "break" => some ({ s with leaving := some .stop, status := 0 }, none)
  | "continue" => some ({ s with leaving := some .again, status := 0 }, none)
  | _ => none

/-! ## Programs -/

def program? (word : String) : Option Program :=
  match word with
  | "echo" => some shellEcho
  | "printf" => some shellPrintf
  | word => (programName? word).bind fun name => programs.lookup name

/-- The shell complains of a word that names no program. -/
def complainMissing (s : Shell) (line : Nat) (sink : Sink) (word : String) : Shell :=
  let isThere := word.toList.contains '/' && s.tree.pathExists (Path.ofString word) matches .ok true
  if isThere then s.complain line sink 126 s!"{word}: Permission denied"
  else s.complain line sink 127 s!"{word}: not found"

/-- Runs a program with its output going to channels. -/
def runProgram (s : Shell) (line : Nat) (channels : Channels) (word : String)
    (words : List String) : Shell :=
  match program? word with
  | none => s.complainMissing line channels.err word
  | some program =>
    let run := program ⟨words, s.input, s.tree⟩
    let input := if (programName? word).any readers.contains then .empty else s.input
    let told := { (s.wait run.micros).withStatus run.status with input }
    (told.emit channels.err run.errors.toUTF8).pour channels.out run.output

end Shell

end Child

end BroadcastIntake
