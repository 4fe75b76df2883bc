import BroadcastIntake.Number.Reading
import BroadcastIntake.Path
import BroadcastIntake.Text.Digit

/-!
# The command line

A command line is a row of words.  Words that start with a dash name options, and some options take
the words after them; all other words are operands: the profile and the place to work on.

* The long name of an option may be cut short as long as one option alone fits.
* A value may follow a long name after an equals sign, and a short name directly.
* A word that reads as a negative number, or that holds a space and names no option, is an operand.
* After the word `--` every word is an operand.
* Both operands are taken from the first row of operands that has one.  So the place has to stand
  next to the profile, with no option between them.
-/

namespace BroadcastIntake

/-- What a run is about. -/
inductive RunTarget where
  /-- The files at a place. -/
  | place (root : Path)
  /-- Names on which the patterns of the show are tried. -/
  | trial (names : List String)
  deriving DecidableEq, Repr

/-- What a command line asks for. -/
structure CommandLine where
  profile : Path
  target : RunTarget
  outputDirectory : Option Path
  isDryRun : Bool
  isDebug : Bool
  gatherInto : Option Path
  report : Option Path
  limit : Option Int
  jobs : Option Int
  isDistributed : Bool
  logLevel : Option String
  logFile : Option Path
  deriving DecidableEq, Repr

/-- Why a command line asks for nothing that can be done. -/
inductive CommandLineFault where
  /-- The words do not form a command line. -/
  | usage
  | tooFewJobs
  | missingRoot
  deriving DecidableEq, Repr

/-- How a command line is taken: as a request, as the wish for help, or not at all. -/
inductive CommandLineOutcome where
  | request (line : CommandLine)
  | help
  | fault (fault : CommandLineFault)
  deriving DecidableEq, Repr

def CommandLine.usage : String :=
  "usage: broadcast-intake [--out DIR] [--dry-run] [--debug] [--gather CSV | -g CSV]\n" ++
    "  [--use-report CSV] [--test-pattern NAME ...] [--limit N] [--jobs N | -j N]\n" ++
    "  [--distributed] [--log-level LEVEL] [--log-file FILE] profile [root]\n"

def CommandLineFault.message : CommandLineFault → String
  | usage => CommandLine.usage
  | tooFewJobs => "Error: --jobs must be at least 1\n"
  | missingRoot => "Error: a root directory or file is required\n"

namespace CommandLine

/-! ## Options -/

/-- The options. -/
inductive Name where
  | help
  | outputDirectory
  | dryRun
  | debug
  | gather
  | report
  | trial
  | limit
  | jobs
  | distributed
  | logLevel
  | logFile
  deriving DecidableEq, Repr

/-- How many words an option takes. -/
inductive Arity where
  | none
  | one
  /-- One or more. -/
  | many
  deriving DecidableEq, Repr

namespace Name

/-- How many words an option takes. -/
def arity : Name → Arity
  | help | dryRun | debug | distributed => .none
  | trial => .many
  | outputDirectory | gather | report | limit | jobs | logLevel | logFile => .one

end Name

def spellings : List (String × Name) :=
  [("-h", .help), ("--help", .help), ("--out", .outputDirectory), ("--dry-run", .dryRun),
   ("--debug", .debug), ("--gather", .gather), ("-g", .gather), ("--use-report", .report),
   ("--test-pattern", .trial), ("--limit", .limit), ("--jobs", .jobs), ("-j", .jobs),
   ("--distributed", .distributed), ("--log-level", .logLevel), ("--log-file", .logFile)]

/-! ## Words -/

/-- A word of a command line, by what it is for. -/
inductive Word where
  | operand (text : String)
  /-- The word after which there are only operands. -/
  | divider
  /-- An option, and the value after an equals sign. -/
  | option (name : Name) (value : Option String)
  /-- Options of one letter in a row behind one dash. -/
  | letters (cs : List Char)
  | unknown
  deriving DecidableEq, Repr

/-- The characters before the first equals sign and after it; none when there is no such sign. -/
def splitAtEquals? (cs : List Char) : Option (List Char × List Char) :=
  match cs.dropWhile (· ≠ '=') with
  | [] => none
  | _ :: value => some (cs.takeWhile (· ≠ '='), value)

def areDigits (cs : List Char) : Bool :=
  !cs.isEmpty && cs.all Text.isDigit

/-- Whether a word reads as a negative number; a line end at its end does not count. -/
def isNegativeNumber (cs : List Char) : Bool :=
  match cs with
  | '-' :: rest =>
    let number := if rest.getLast? = some '\n' then rest.dropLast else rest
    areDigits number ||
      match number.dropWhile Text.isDigit with
      | '.' :: fraction => areDigits fraction
      | _ => false
  | _ => false

def nameOf? (cs : List Char) : Option Name :=
  spellings.lookup (String.ofList cs)

/-- The options that a long name, which may be cut short, fits. -/
def longMatches (cs : List Char) : List Word :=
  let (start, value) :=
    match splitAtEquals? cs with
    | some (start, value) => (start, some (String.ofList value))
    | none => (cs, none)
  (spellings.filter fun s => start.isPrefixOf s.1.toList).map fun s => .option s.2 value

/-- A word with one dash as a row of letters, when the first names an option. -/
def shortMatches (cs : List Char) : List Word :=
  ((nameOf? (cs.take 2)).map fun _ => Word.letters (cs.drop 1)).toList

/-- The options that a word fits which spells none. -/
def fitting (cs : List Char) : List Word :=
  match cs with
  | '-' :: '-' :: _ => longMatches cs
  | _ => shortMatches cs

/-- The option that a word spells, with the value after an equals sign, if there is one. -/
def spelled? (cs : List Char) : Option Word :=
  match nameOf? cs with
  | some name => some (.option name none)
  | none =>
    match splitAtEquals? cs with
    | some (start, value) =>
      (nameOf? start).map fun name => .option name (some (String.ofList value))
    | none => none

/-- What a word with a dash in front is for; it must not fit several options. -/
def dashedWord (cs : List Char) : Except CommandLineFault Word :=
  match spelled? cs with
  | some word => .ok word
  | none =>
    match fitting cs with
    | [word] => .ok word
    | _ :: _ :: _ => .error .usage
    | [] =>
      if isNegativeNumber cs || cs.contains ' ' then .ok (.operand (String.ofList cs))
      else .ok .unknown

def wordOf (word : String) : Except CommandLineFault Word :=
  match word.toList with
  | '-' :: c :: rest => dashedWord ('-' :: c :: rest)
  | _ => .ok (.operand word)

def classify : List String → Except CommandLineFault (List Word)
  | [] => .ok []
  | word :: rest =>
    if word = "--" then .ok (.divider :: rest.map .operand)
    else do
      let first ← wordOf word
      return first :: (← classify rest)

/-! ## Values -/

/-- The options and operands up to some word.  `areOperandsTaken` says whether the operands have had
their turn; `hasStray` whether some word was of no use. -/
structure Draft where
  profile : Option String
  root : Option String
  areOperandsTaken : Bool
  hasStray : Bool
  outputDirectory : Option String
  isDryRun : Bool
  isDebug : Bool
  gatherInto : Option String
  report : Option String
  trialNames : List String
  limit : Option Int
  jobs : Option Int
  isDistributed : Bool
  logLevel : Option String
  logFile : Option String
  deriving DecidableEq, Repr

namespace Draft

def empty : Draft :=
  ⟨none, none, false, false, none, false, false, none, none, [], none, none, false, none, none⟩

end Draft

/-- How reading a command line can end early. -/
inductive Stop where
  | help
  | usage
  deriving DecidableEq, Repr

def number? (value : String) : Except Stop Int :=
  match readInt value with
  | .ok n => .ok n
  | .error _ => .error .usage

def setOption (d : Draft) (name : Name) (values : List String) : Except Stop Draft :=
  let value := values.head?
  match name with
  | .help => .error .help
  | .outputDirectory => .ok { d with outputDirectory := value }
  | .dryRun => .ok { d with isDryRun := true }
  | .debug => .ok { d with isDebug := true }
  | .gather => .ok { d with gatherInto := value }
  | .report => .ok { d with report := value }
  | .trial => .ok { d with trialNames := values }
  | .limit => (value.mapM number?).map fun limit => { d with limit }
  | .jobs => (value.mapM number?).map fun jobs => { d with jobs }
  | .distributed => .ok { d with isDistributed := true }
  | .logLevel => .ok { d with logLevel := value }
  | .logFile => .ok { d with logFile := value }

/-! ## Taking words -/

/-- The texts of the operands at the start of the words, and the words after them. -/
def leadingOperands : List Word → List String × List Word
  | .operand text :: rest =>
    let (texts, left) := leadingOperands rest
    (text :: texts, left)
  | words => ([], words)

def hasOptions (words : List Word) : Bool :=
  words.any fun word =>
    match word with
    | .option _ _ | .letters _ | .unknown => true
    | .operand _ | .divider => false

/-- The draft with operands: the first is the profile and the second the place. -/
def setOperands (d : Draft) (operands : List String) : Draft :=
  match operands with
  | [] => d
  | profile :: rest =>
    if d.areOperandsTaken then { d with hasStray := true }
    else
      { d with
        profile := some profile
        root := rest.head?
        areOperandsTaken := true
        hasStray := d.hasStray || 1 < rest.length }

/-- What one word with options comes to: the options with their values, whether some letter names no
option, and the words that are left. -/
structure OptionRow where
  settings : List (Name × List String)
  hasStray : Bool
  left : List Word
  deriving DecidableEq, Repr

/-- An option with its values among the words after it. -/
def optionBefore (name : Name) (after : List Word) : Except Stop OptionRow :=
  match name.arity with
  | .none => .ok ⟨[(name, [])], false, after⟩
  | .one =>
    match after with
    | .operand text :: left => .ok ⟨[(name, [text])], false, left⟩
    | _ => .error .usage
  | .many =>
    match leadingOperands after with
    | ([], _) => .error .usage
    | (texts, left) => .ok ⟨[(name, texts)], false, left⟩

def optionWith (name : Name) (value : String) (after : List Word) : Except Stop OptionRow :=
  match name.arity with
  | .none => .error .usage
  | .one | .many => .ok ⟨[(name, [value])], false, after⟩

/-- Options of one letter in a row.  One that takes a value takes the rest of the word, without an
equals sign at its start, or the next word when nothing is left.  A letter that names no option ends
the row; a dash or an equals sign may not stand in its place. -/
def letterRow : List Char → List Word → Except Stop OptionRow
  | [], after => .ok ⟨[], false, after⟩
  | c :: rest, after =>
    match nameOf? ['-', c], rest with
    | none, _ => .ok ⟨[], true, after⟩
    | some name, [] => optionBefore name after
    | some name, '=' :: value => optionWith name (String.ofList value) after
    | some name, mark :: more =>
      match name.arity with
      | .none =>
        if mark = '-' then .error .usage
        else
          (letterRow rest after).map fun row => { row with settings := (name, []) :: row.settings }
      | .one | .many => .ok ⟨[(name, [String.ofList (mark :: more)])], false, after⟩

/-- The draft with the options of one word, and the words that are left. -/
def setRow (d : Draft) (row : OptionRow) : Except Stop (Draft × List Word) := do
  let d ← row.settings.foldlM (fun d (name, values) => setOption d name values) d
  return ({ d with hasStray := d.hasStray || row.hasStray }, row.left)

/-- One option, or one row of operands before an option. -/
def takeNext (d : Draft) : List Word → Except Stop (Draft × List Word)
  | .option name none :: after => (optionBefore name after).bind (setRow d)
  | .option name (some value) :: after => (optionWith name value after).bind (setRow d)
  | .letters cs :: after => (letterRow cs after).bind (setRow d)
  | .unknown :: after => .ok ({ d with hasStray := true }, after)
  | words =>
    let (operands, left) := leadingOperands words
    .ok (setOperands d operands, left)

/-- The draft with the profile and with the operands behind the divider that follow it.  Two dashes
stand for a place that is left out. -/
def setLastOperands (d : Draft) (profile : String) (others : List String) : Draft :=
  let taken := setOperands d (profile :: others)
  { taken with root := taken.root.filter (· ≠ "--") }

/-- The last words, among which there is no option.  The divider goes to the operand before it, or
to the first one after it; without an operand that it can go to it is of no use. -/
def takeLast (d : Draft) (words : List Word) : Draft :=
  let (before, rest) := leadingOperands words
  match rest with
  | [] => setOperands d before
  | _ :: rest =>
    let after := (leadingOperands rest).1
    if d.areOperandsTaken then { d with hasStray := true }
    else
      match before, after with
      | [], [] => { d with hasStray := true }
      | [], profile :: others => setLastOperands d profile others
      | [profile], others => setLastOperands d profile others
      | _, _ =>
        let taken := setOperands d before
        { taken with hasStray := taken.hasStray || !after.isEmpty }

/-- Takes words until no option is left among them; every step takes one word or more. -/
def takeAll : Nat → Draft → List Word → Except Stop Draft
  | 0, d, words => .ok (takeLast d words)
  | n + 1, d, words =>
    if hasOptions words then do
      let (taken, left) ← takeNext d words
      takeAll n taken left
    else .ok (takeLast d words)

/-! ## Requests -/

/-- What the run of a draft is about; names to try win over a place. -/
def targetOf (d : Draft) : Option RunTarget :=
  if d.trialNames.isEmpty then d.root.map fun root => .place (Path.ofString root)
  else some (.trial d.trialNames)

def ofDraft (d : Draft) (profile : String) : CommandLineOutcome :=
  match targetOf d with
  | none => .fault .missingRoot
  | some target =>
    .request
      { profile := Path.ofString profile
        target
        outputDirectory := d.outputDirectory.map Path.ofString
        isDryRun := d.isDryRun
        isDebug := d.isDebug
        gatherInto := d.gatherInto.map Path.ofString
        report := d.report.map Path.ofString
        limit := d.limit
        jobs := d.jobs
        isDistributed := d.isDistributed
        logLevel := d.logLevel.filter (· ≠ "")
        logFile := d.logFile.map Path.ofString }

/-- The outcome of a draft whose words have all been taken. -/
def check (d : Draft) : CommandLineOutcome :=
  match d.profile, d.hasStray with
  | none, _ | _, true => .fault .usage
  | some profile, false =>
    if d.jobs.any (· < 1) then .fault .tooFewJobs else ofDraft d profile

def ofWords (words : List String) : CommandLineOutcome :=
  match classify words with
  | .error fault => .fault fault
  | .ok classified =>
    match takeAll classified.length .empty classified with
    | .error .help => .help
    | .error .usage => .fault .usage
    | .ok draft => check draft

end CommandLine

end BroadcastIntake
