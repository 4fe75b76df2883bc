import BroadcastIntake.Child.Script.Reader
import BroadcastIntake.Child.Shell.Command
import BroadcastIntake.Child.Shell.Expansion

/-!
# The shell

Runs scripts.  `Shell.run` follows the form of a script; how deep it goes and how often it repeats a
loop is bounded, and a script that goes past the bound counts as one that never ends.
-/

namespace BroadcastIntake

namespace Child

def shellNames : List String := ["sh", "dash", "bash"]

namespace Shell

/-! ## Calling a shell -/

/-- What a shell is called to do. -/
structure Order where
  name : String
  parameters : List String
  endsOnFailure : Bool
  script : String

/-- The order in the words of a shell: a script and its parameters, or a file with a script.
Without words the script is read from the input.  What is told when there is no script. -/
def readOrder (tree : FileTree) (input : Flow) (name : String) (endsOnFailure : Bool) :
    List String → Except String Order
  | [] =>
    match input with
    | .bytes content => .ok ⟨name, [], endsOnFailure, Text.decode content⟩
    | .endless _ _ => .ok ⟨name, [], endsOnFailure, ""⟩
  | word :: words =>
    if word.startsWith "-" && 1 < word.length then
      let ends := endsOnFailure || word.toList.contains 'e'
      if word.toList.contains 'c' then
        match words with
        | script :: rest => .ok ⟨rest.headD name, rest.tail, ends, script⟩
        | [] => .error s!"{name}: 0: -c requires an argument\n"
      else readOrder tree input name ends words
    else
      match tree.read (Path.ofString word) with
      | .ok content => .ok ⟨word, words, endsOnFailure, Text.decode content⟩
      | .error _ => .error s!"{name}: 0: cannot open {word}: No such file\n"

/-! ## Loops -/

/-- Repeats a body, at most `n` times, while a test succeeds, or with `isUntil` until it does.
`status` is the status of the body's last run. -/
def repeatLoop (test body : Shell → Shell) (isUntil : Bool) : Nat → Nat → Shell → Shell
  | 0, _, s => { s with micros := none }
  | n + 1, status, s =>
    let tested := test s
    if tested.isHalted then tested
    else if (tested.status = 0) = isUntil then tested.withStatus status
    else
      let done := body tested
      match done.leaving with
      | some .stop => { done with leaving := none }
      | some .again => repeatLoop test body isUntil n done.status { done with leaving := none }
      | some .back => done
      | none => if done.isHalted then done else repeatLoop test body isUntil n done.status done

/-- Runs a body for each of several values of a variable. -/
def forEach (body : Shell → Shell) (name : String) (values : List String) (s : Shell) : Shell :=
  let step (s : Shell) (value : String) : Shell :=
    if s.isHalted then s
    else
      let done := body (s.assign name value)
      if done.leaving = some .again then { done with leaving := none } else done
  let done := values.foldl step (s.withStatus 0)
  { done with leaving := done.leaving.filter (· = .back) }

/-! ## Running -/

/-- Ends a shell that is to end on failure, after a command that failed without being tested. -/
def settle (isTested : Bool) (s : Shell) : Shell :=
  if s.endsOnFailure && !isTested && s.status ≠ 0 && s.ending.isNone then
    { s with ending := some s.status }
  else s

/-- Runs the lines of a script with a function that runs one of them. -/
def runText (runLine : Shell → Script → Shell) (sink : Sink) (s : Shell) (text : List Char) :
    Shell :=
  let (lines, error?) := readScript text
  let done := lines.foldl runLine s
  match error? with
  | some error =>
    if done.isHalted then done else done.giveUp error.line sink s!"Syntax error: {error.message}"
  | none => done

def runLastTrap (runLine : Shell → Script → Shell) (s : Shell) : Shell :=
  match s.traps.lookup "EXIT" with
  | none => s
  | some action =>
    if s.code < 0 || s.micros.isNone then s
    else
      let code := s.code
      let done := runText runLine .errors { s with ending := none, traps := [] } action.toList
      { done with ending := done.ending.or (some code) }

/-- Runs a script in a subshell and catches what it prints. -/
def catchOutput (run : Channels → Shell → Script → Shell) (channels : Channels) : Capture :=
  fun s script =>
    let position := s.pipes.length
    let inner := runText (run { channels with out := .pipe position }) channels.err
      { s.enter with pipes := s.pipes ++ [.empty] } script
    let text :=
      match inner.pipes[position]? with
      | some (.bytes content) => Text.decode content
      | _ => ""
    (s.leave { inner with pipes := inner.pipes.take position }, text)

/-- The channels after redirections, without opening anything. -/
def channelsAfter (channels : Channels) (redirections : List Redirection) : Channels :=
  redirections.foldl
    (fun c r =>
      match r.kind, (ScriptWord.plain? r.target).map String.ofList with
      | .read, _ => c
      | .duplicate, some word => c.set r.channel (c.get ((word.toNat?).getD 1))
      | _, _ => c.set r.channel .nowhere)
    channels

/-- Whether a script in the background keeps a channel open that others wait for. -/
def holdsChannel (channels : Channels) (body : Script) : Bool :=
  let after :=
    match body with
    | .simple _ _ redirections | .redirected _ _ redirections => channelsAfter channels redirections
    | _ => channels
  after.out.isOpen || after.err.isOpen

/-- Whether a text fits one of several patterns. -/
def fitsAny (capture : Capture) (sink : Sink) (s : Shell) (cs : List Char) :
    List ScriptWord → Shell × Bool
  | [] => (s, false)
  | pattern :: rest =>
    let (s, fields) := s.expandFields capture 1 sink pattern
    if fitsName fields.flatten cs then (s, true) else fitsAny capture sink s cs rest

/-- Redirections one after the other; when one fails the shell has complained. -/
def redirectAll (capture : Capture) (line : Nat) (channels : Channels) (s : Shell) :
    List Redirection → Except Shell (Shell × Channels)
  | [] => .ok (s, channels)
  | r :: rest =>
    let (s, word) := s.expandOne capture line channels.err r.target
    match s.redirect channels r.channel r.kind word with
    | .error message => .error (s.complain line channels.err 2 message)
    | .ok (s, channels) => redirectAll capture line channels s rest

/-- The assignments in front of a command, and the other words. -/
def splitAssignments : List ScriptWord → List (String × ScriptWord) × List ScriptWord
  | [] => ([], [])
  | word :: rest =>
    match ScriptWord.assignment? word with
    | some assignment =>
      let (assignments, words) := splitAssignments rest
      (assignment :: assignments, words)
    | none => ([], word :: rest)

/-- The shell with variables set in turn. -/
def assignAll (capture : Capture) (line : Nat) (sink : Sink) (s : Shell) :
    List (String × ScriptWord) → Shell
  | [] => s
  | (name, word) :: rest =>
    let (s, value) := s.expandOne capture line sink word
    assignAll capture line sink (s.assign name value) rest

def runInner (run : Channels → Shell → Script → Shell) (channels : Channels) (s : Shell)
    (name : String) (words : List String) : Shell :=
  match readOrder s.tree s.input name false words with
  | .error message => (s.emit channels.err message.toUTF8).withStatus 2
  | .ok order =>
    let bindings := s.bindings.filter fun v => s.exported.contains v.1
    let inner : Shell :=
      { s.enter with
        name := order.name, parameters := order.parameters, bindings, status := 0
        endsOnFailure := order.endsOnFailure }
    let done := runLastTrap (run channels)
      (runText (run channels) channels.err inner order.script.toList)
    if done.code < 0 then
      let account := (signalAccount? done.code.natAbs).map (· ++ "\n")
      let told := ({ s.leave done with ending := none }).emit .errors (account.getD "").toUTF8
      told.withStatus (128 + done.code.natAbs)
    else { s.leave done with ending := none }

/-- Runs a command whose words are known. -/
def runWords (run : Channels → Shell → Script → Shell) (line : Nat) (channels : Channels)
    (s : Shell) (words : List String) : Shell :=
  match words with
  | [] => s
  | name :: rest =>
    match s.functions.lookup name with
    | some body =>
      let done := run channels { s with parameters := rest } body
      { done with
        parameters := s.parameters
        leaving := done.leaving.filter (· ≠ .back) }
    | none =>
      if shellNames.contains name then runInner run channels s name rest
      else
        match s.carryOut? line channels.err name rest with
        | some (s, none) => s
        | some (s, some text) => runText (run channels) channels.err s text.toList
        | none => s.runProgram line channels name rest

/-- Runs a simple command. -/
def runSimple (run : Channels → Shell → Script → Shell) (line : Nat) (channels : Channels)
    (s : Shell) (words : List ScriptWord) (redirections : List Redirection) : Shell :=
  let capture := catchOutput run channels
  let (assignments, words) := splitAssignments words
  let (expanded, fields) := s.expandAll capture line channels.err words
  if expanded.isHalted then expanded
  else
    match redirectAll capture line channels expanded redirections with
    | .error complained => { complained with input := s.input }
    | .ok (opened, channels) =>
      match fields with
      | [] =>
        let printing := assignments.any fun a => a.2.any fun part => part matches .output _ _
        let assigned := assignAll capture line channels.err opened assignments
        { (if printing then assigned else assigned.withStatus 0) with input := s.input }
      | name :: rest =>
        let assigned := assignAll capture line channels.err opened assignments
        let exported := assignments.map Prod.fst ++ assigned.exported
        let (isLast, command) :=
          match name, rest with
          | "exec", _ :: _ => (true, rest)
          | "command", _ :: _ => (false, rest)
          | _, _ => (false, name :: rest)
        let done := runWords run line channels { assigned with exported } command
        let kept :=
          if assignments.isEmpty then done
          else { done with bindings := opened.bindings, exported := opened.exported }
        let last := if isLast && kept.ending.isNone then some (kept.status : Int) else kept.ending
        { kept with
          ending := last
          input := if redirections.any (·.kind = .read) then s.input else kept.input }

/-- Runs two scripts that are joined by a pipe, both in subshells that start at the same time. -/
def runPipe (first second : Channels → Shell → Shell) (channels : Channels) (s : Shell) : Shell :=
  let position := s.pipes.length
  let writer := first { channels with out := .pipe position }
    { s.enter with pipes := s.pipes ++ [.empty] }
  let flow := (writer.pipes[position]?).getD .empty
  let between := s.leave { writer with pipes := writer.pipes.take position }
  let reader := second channels { between.enter with input := flow, micros := s.micros }
  let micros :=
    match flow with
    | .endless _ _ => reader.micros
    | .bytes _ => later writer.micros reader.micros
  { between.leave reader with input := between.input, micros }

/-- Runs a script, going at most `n` deep.  With `isTested` a failure is looked at by what stands
around the script. -/
def run : Nat → Bool → Channels → Shell → Script → Shell
  | 0, _, _, s, _ => { s with micros := none }
  | n + 1, isTested, channels, s, script =>
    if s.isHalted then s
    else
      let tested := run n true channels
      let same := run n isTested channels
      match script with
      | .nothing => s
      | .simple line words redirections =>
        settle isTested (runSimple (run n isTested) line channels s words redirections)
      | .redirected line body redirections =>
        match redirectAll (catchOutput (run n isTested) channels) line channels s redirections with
        | .error complained => settle isTested { complained with input := s.input }
        | .ok (opened, channels) =>
          let done := run n isTested channels opened body
          { done with
            input := if redirections.any (·.kind = .read) then s.input else done.input }
      | .next first second => same (same s first) second
      | .andThen first second =>
        let done := tested s first
        if done.status = 0 then same done second else done
      | .orElse first second =>
        let done := tested s first
        if done.status = 0 then done else same done second
      | .negated body =>
        let done := tested s body
        if done.isHalted then done else done.withStatus (if done.status = 0 then 1 else 0)
      | .pipe first second =>
        settle isTested
          (runPipe (fun c s => run n isTested c s first) (fun c s => run n isTested c s second)
            channels s)
      | .background body =>
        let inner := same s.enter body
        let background :=
          if holdsChannel channels body then later s.backgroundMicros inner.totalMicros
          else s.backgroundMicros
        { s.leave inner with status := 0, micros := s.micros, backgroundMicros := background }
      | .subshell body => settle isTested (s.leave (same s.enter body))
      | .choice condition yes no =>
        let done := tested s condition
        if done.isHalted then done
        else if done.status = 0 then same done yes
        else same (done.withStatus 0) no
      | .loop isUntil condition body =>
        repeatLoop (tested · condition) (same · body) isUntil n 0 s
      | .choose subject patterns body otherwise =>
        let capture := catchOutput (run n isTested) channels
        let (expanded, text) := s.expandOne capture 1 channels.err subject
        let (matched, fits) := fitsAny capture channels.err expanded text.toList patterns
        if matched.isHalted then matched
        else if fits then same matched body
        else same (matched.withStatus 0) otherwise
      | .define name body => { s with functions := (name, body) :: s.functions, status := 0 }
      | .each name words body =>
        match words with
        | none => forEach (same · body) name s.parameters s
        | some words =>
          let (expanded, fields) :=
            s.expandAll (catchOutput (run n isTested) channels) 1 channels.err words
          forEach (same · body) name fields expanded

/-- How deep scripts are followed and how often loops are repeated. -/
def stepLimit : Nat := 20000

def runOrder (tree : FileTree) (name : String) (words : List String) : Shell :=
  match readOrder tree .empty name false words with
  | .error message =>
    ((start name [] tree).emit .errors message.toUTF8).withStatus 2
  | .ok order =>
    let s := { start order.name order.parameters tree with endsOnFailure := order.endsOnFailure }
    let runLine := run stepLimit false .standard
    runLastTrap runLine (runText runLine .errors s order.script.toList)

end Shell

end Child

end BroadcastIntake
