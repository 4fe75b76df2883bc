import BroadcastIntake.Child.Script
import BroadcastIntake.Child.Toolset

/-!
# The state of a shell

A shell has parameters and variables, the status of the last command, an input, what went to its two
output channels, and the time that has passed.  What goes to a channel is kept with its time, so
that what happens in the background comes to stand where it belongs.
-/

namespace BroadcastIntake

namespace Child

/-- How a loop or a command that a script defines is left. -/
inductive Leaving where
  /-- The loop ends. -/
  | stop
  /-- The loop goes on with its next round. -/
  | again
  /-- The command ends. -/
  | back
  deriving DecidableEq, Repr

/-- The state of a shell. -/
structure Shell where
  name : String
  parameters : List String
  bindings : List (String × String)
  /-- The names of the variables that programs get to know. -/
  exported : List String
  status : Nat
  tree : FileTree
  input : Flow
  /-- What went to the output and when, the last first. -/
  output : List (Nat × ByteArray)
  /-- What went to the channel for errors and when, the last first. -/
  errors : List (Nat × ByteArray)
  /-- The pipes and captures that are open, the innermost last. -/
  pipes : List Flow
  /-- The time that has passed in microseconds; none once something never ends. -/
  micros : Option Nat
  /-- When the last command in the background is done; none if one of them never is. -/
  backgroundMicros : Option Nat
  /-- Whether a command that fails ends the shell. -/
  endsOnFailure : Bool
  /-- The commands that scripts have defined. -/
  functions : List (String × Script)
  /-- What is run when a signal comes, or at the end. -/
  traps : List (String × String)
  leaving : Option Leaving
  /-- The exit code of a shell that has ended, or the number of the signal that ended it below
  zero. -/
  ending : Option Int

namespace Shell

/-- A shell before its first command. -/
def start (name : String) (parameters : List String) (tree : FileTree) : Shell :=
  { name, parameters, bindings := [], exported := [], status := 0, tree, input := .empty
    output := [], errors := [], pipes := [], micros := some 0, backgroundMicros := some 0
    endsOnFailure := false, functions := [], traps := [], leaving := none, ending := none }

def processNumber : String := "4242"

def backgroundNumber : String := "4243"

/-- Whether nothing more is run for now. -/
def isHalted (s : Shell) : Bool :=
  s.ending.isSome || s.leaving.isSome || s.micros.isNone

def withStatus (s : Shell) (status : Nat) : Shell :=
  { s with status }

def assign (s : Shell) (name value : String) : Shell :=
  { s with bindings := (name, value) :: s.bindings.filter (·.1 ≠ name) }

/-- The time after something else that takes its time. -/
def wait (s : Shell) (micros : Option Nat) : Shell :=
  { s with
    micros :=
      match s.micros, micros with
      | some a, some b => some (a + b)
      | _, _ => none }

/-- The later one of two times; something that never happens is later than all. -/
def later (a b : Option Nat) : Option Nat :=
  match a, b with
  | some a, some b => some (max a b)
  | _, _ => none

/-- The exit code of a shell that has run everything. -/
def code (s : Shell) : Int :=
  s.ending.getD s.status

/-! ## Subshells -/

/-- A subshell: it has no traps, and nothing ends it yet. -/
def enter (s : Shell) : Shell :=
  { s with traps := [], leaving := none }

/-- A shell after one of its subshells.  Of what the subshell did, its variables and its directory
are lost.  A signal to the shell's process ends the shell itself. -/
def leave (s inner : Shell) : Shell :=
  { s with
    status := if inner.code < 0 then s.status else inner.code.toNat
    tree := { inner.tree with workingDirectory := s.tree.workingDirectory }
    input := inner.input
    output := inner.output
    errors := inner.errors
    pipes := inner.pipes
    micros := inner.micros
    backgroundMicros := inner.backgroundMicros
    ending := inner.ending.filter (· < 0) }

/-! ## Channels -/

/-- Where a channel goes. -/
inductive Sink where
  | output
  | errors
  /-- The pipe with the given position. -/
  | pipe (position : Nat)
  | file (path : Path)
  | nowhere
  deriving DecidableEq, Repr

/-- Whether a channel is one that others wait for. -/
def Sink.isOpen : Sink → Bool
  | output | errors | pipe _ => true
  | file _ | nowhere => false

/-- Where the two output channels of a command go. -/
structure Channels where
  out : Sink
  err : Sink
  deriving DecidableEq, Repr

namespace Channels

/-- The channels of a shell itself. -/
def standard : Channels := ⟨.output, .errors⟩

/-- The channels with one of the two going elsewhere. -/
def set (c : Channels) (channel : Nat) (sink : Sink) : Channels :=
  if channel = 2 then { c with err := sink } else { c with out := sink }

def get (c : Channels) (channel : Nat) : Sink :=
  if channel = 2 then c.err else c.out

end Channels

/-- Bytes go to a channel. -/
def emit (s : Shell) (sink : Sink) (content : ByteArray) : Shell :=
  let now := s.micros.getD 0
  match sink with
  | .output => { s with output := (now, content) :: s.output }
  | .errors => { s with errors := (now, content) :: s.errors }
  | .pipe position =>
    { s with pipes := s.pipes.modify position fun flow => flow.append (.bytes content) }
  | .nowhere => s
  | .file path =>
    match s.tree.read path with
    | .ok before => { s with tree := (s.tree.write path (before ++ content)).toOption.getD s.tree }
    | .error _ => s

/-- A flow goes to a channel; the shell is never done with an endless one. -/
def pour (s : Shell) (sink : Sink) (flow : Flow) : Shell :=
  match flow, sink with
  | .bytes content, sink => s.emit sink content
  | .endless start unit, .pipe position =>
    { s with
      pipes := s.pipes.modify position fun before => before.append (.endless start unit)
      micros := none }
  | .endless _ _, _ => { s with micros := none }

def complain (s : Shell) (line : Nat) (sink : Sink) (status : Nat) (message : String) : Shell :=
  (s.emit sink s!"{s.name}: {line}: {message}\n".toUTF8).withStatus status

/-- The shell complains and ends. -/
def giveUp (s : Shell) (line : Nat) (sink : Sink) (message : String) : Shell :=
  { s.complain line sink 2 message with ending := some 2 }

/-- What went to a channel, in the order of its times. -/
def gathered (entries : List (Nat × ByteArray)) : ByteArray :=
  (entries.reverse.mergeSort fun a b => a.1 ≤ b.1).foldl (fun all e => all ++ e.2) ByteArray.empty

/-! ## Redirections -/

/-- The file of a redirection, made or emptied unless it is to be kept. -/
def openFile (s : Shell) (keeps : Bool) (word : String) : Except String (Shell × Sink) :=
  if (device? word).isSome then .ok (s, .nowhere)
  else
    let path := Path.ofString word
    let isThere := keeps && (s.tree.isFile path).toOption = some true
    if isThere then .ok (s, .file path)
    else
      match s.tree.write path ByteArray.empty with
      | .ok tree => .ok ({ s with tree }, .file path)
      | .error e =>
        let reason := if e.fault = .missing then "Directory nonexistent" else e.fault.code.2
        .error s!"cannot create {word}: {reason}"

/-- One redirection to the file or channel that a word names; what is told when it fails. -/
def redirect (s : Shell) (channels : Channels) (channel : Nat) (kind : RedirectionKind)
    (word : String) : Except String (Shell × Channels) :=
  match kind with
  | .duplicate =>
    match word.toNat? with
    | some other => .ok (s, channels.set channel (channels.get other))
    | none =>
      if word = "-" then .ok (s, channels.set channel .nowhere)
      else .error "Syntax error: Bad fd number"
  | .read =>
    match (ProgramCall.mk [] s.input s.tree).readWord (if word = "-" then "./-" else word) with
    | .ok input => .ok ({ s with input }, channels)
    | .error fault =>
      let reason := if fault = .missing then "No such file" else fault.code.2
      .error s!"cannot open {word}: {reason}"
  | .write => (s.openFile false word).map fun (s, sink) => (s, channels.set channel sink)
  | .append => (s.openFile true word).map fun (s, sink) => (s, channels.set channel sink)

/-! ## The end -/

/-- How long the shell and its commands in the background keep their channels open. -/
def totalMicros (s : Shell) : Option Nat :=
  later s.micros s.backgroundMicros

end Shell

end Child

end BroadcastIntake
