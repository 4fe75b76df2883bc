import BroadcastIntake.Child.Script.Token

/-!
# Reading scripts

Puts the tokens of a script together.  A script is read line by line: the lines before one that
cannot be read are still run.  A construct that is open at the end of a line goes on in the next
one.
-/

namespace BroadcastIntake

namespace Child

/-- Something that was read at the start of tokens, and the tokens after it. -/
abbrev WithRest (α : Type) := α × List ScriptToken

namespace ScriptToken

/-- The words that have a meaning of their own at the start of a command. -/
def reservedWords : List String :=
  ["!", "do", "done", "elif", "else", "esac", "fi", "for", "if", "then", "until", "while", "\x7b",
   "\x7d", "case"]

def reserved? (t : ScriptToken) : Option String :=
  match t.kind with
  | .word parts => do
    let word := String.ofList (← ScriptWord.plain? parts)
    if reservedWords.contains word then some word else none
  | _ => none

/-- The reserved words that end a list of commands. -/
def closingWords : List String :=
  ["do", "done", "elif", "else", "esac", "fi", "then", "\x7d"]

def endsList (t : ScriptToken) : Bool :=
  t.kind = .closing || t.kind = .caseEnd || t.reserved?.any closingWords.contains

def account (t : ScriptToken) : String :=
  match t.kind with
  | .word _ =>
    match t.reserved? with
    | some word => s!"\"{word}\""
    | none => "word"
  | .redirect _ _ => "redirection"
  | .lineEnd => "newline"
  | .next => "\";\""
  | .background => "\"&\""
  | .andThen => "\"&&\""
  | .orElse => "\"||\""
  | .pipe => "\"|\""
  | .opening => "\"(\""
  | .closing => "\")\""
  | .caseEnd => "\";;\""
  | .unclosed => "end of file"

end ScriptToken

/-- The error that tokens do not go on as they have to.  `line` is the last line that was read. -/
def unexpected (line : Nat) (expected : Option String) (tokens : List ScriptToken) : ScriptError :=
  let ending := (expected.map fun word => s!" (expecting {word})").getD ""
  match tokens with
  | [] => ⟨line, s!"end of file unexpected{ending}"⟩
  | ⟨line, .unclosed⟩ :: _ => ⟨line, "Unterminated quoted string"⟩
  | t :: _ => ⟨t.line, s!"{t.account} unexpected{ending}"⟩

def skipLineEnds : List ScriptToken → List ScriptToken
  | t :: rest => if t.kind = .lineEnd then skipLineEnds rest else t :: rest
  | [] => []

/-- The tokens after a reserved word that has to come next. -/
def expectWord (line : Nat) (word : String) (tokens : List ScriptToken) :
    Except ScriptError (List ScriptToken) :=
  match tokens with
  | t :: rest =>
    if t.reserved? = some word then .ok rest
    else .error (unexpected line (some s!"\"{word}\"") tokens)
  | [] => .error (unexpected line (some s!"\"{word}\"") tokens)

/-- The words and redirections at the start of tokens. -/
def readSimple (line : Nat) :
    List ScriptToken → Except ScriptError (WithRest (List ScriptWord × List Redirection))
  | ⟨_, .word parts⟩ :: rest => do
    let ((words, redirections), left) ← readSimple line rest
    return ((parts :: words, redirections), left)
  | ⟨_, .redirect channel kind⟩ :: ⟨_, .word target⟩ :: rest => do
    let ((words, redirections), left) ← readSimple line rest
    return ((words, ⟨channel, kind, target⟩ :: redirections), left)
  | ⟨_, .redirect _ _⟩ :: rest => .error (unexpected line none rest)
  | rest => .ok (([], []), rest)

def readRedirections (line : Nat) : List ScriptToken → Except ScriptError (WithRest (List Redirection))
  | ⟨_, .redirect channel kind⟩ :: ⟨_, .word target⟩ :: rest => do
    let (redirections, left) ← readRedirections line rest
    return (⟨channel, kind, target⟩ :: redirections, left)
  | ⟨_, .redirect _ _⟩ :: rest => .error (unexpected line none rest)
  | rest => .ok ([], rest)

/-- The words of a loop after `in`, up to the end of its line or a semicolon. -/
def readLoopWords : List ScriptToken → List ScriptWord × List ScriptToken
  | ⟨_, .word parts⟩ :: rest =>
    let (words, left) := readLoopWords rest
    (parts :: words, left)
  | ⟨line, kind⟩ :: rest =>
    if kind = .next || kind = .lineEnd then ([], rest) else ([], ⟨line, kind⟩ :: rest)
  | [] => ([], [])

/-- The head of a loop after `for`: the name and the words. -/
def readLoopHead (line : Nat) (tokens : List ScriptToken) :
    Except ScriptError (WithRest (String × Option (List ScriptWord))) :=
  match tokens with
  | ⟨_, .word name⟩ :: rest =>
    match (ScriptWord.plain? name).filter isName with
    | none => .error ⟨line, "Bad for loop variable"⟩
    | some name =>
      match skipLineEnds rest with
      | ⟨_, .word word⟩ :: more =>
        if ScriptWord.plain? word = some "in".toList then
          let (words, left) := readLoopWords more
          .ok ((String.ofList name, some words), left)
        else .ok ((String.ofList name, none), ⟨line, .word word⟩ :: more)
      | ⟨_, .next⟩ :: more => .ok ((String.ofList name, none), more)
      | left => .ok ((String.ofList name, none), left)
  | tokens => .error (unexpected line none tokens)

/-- The patterns of a choice up to the parenthesis behind them. -/
def readPatterns (line : Nat) :
    List ScriptToken → Except ScriptError (WithRest (List ScriptWord))
  | ⟨_, .word pattern⟩ :: ⟨_, .pipe⟩ :: rest => do
    let (patterns, left) ← readPatterns line rest
    return (pattern :: patterns, left)
  | ⟨_, .word pattern⟩ :: ⟨_, .closing⟩ :: rest => .ok ([pattern], rest)
  | ⟨_, .word _⟩ :: rest => .error (unexpected line (some "\")\"") rest)
  | tokens => .error (unexpected line none tokens)

/-- The head of a choice after `case`: its subject. -/
def readSubject (line : Nat) : List ScriptToken → Except ScriptError (WithRest ScriptWord)
  | ⟨_, .word subject⟩ :: rest =>
    match skipLineEnds rest with
    | ⟨_, .word word⟩ :: more =>
      if ScriptWord.plain? word = some "in".toList then .ok (subject, more)
      else .error (unexpected line (some "\"in\"") rest)
    | left => .error (unexpected line (some "\"in\"") left)
  | tokens => .error (unexpected line none tokens)

/-- The name of the command that tokens define, and the tokens of its body. -/
def definition? : List ScriptToken → Option (WithRest String)
  | ⟨_, .word name⟩ :: ⟨_, .opening⟩ :: ⟨_, .closing⟩ :: rest => do
    let name ← (ScriptWord.plain? name).filter isName
    return (String.ofList name, rest)
  | _ => none

/-- The line of the first token, or the given one when there is none. -/
def lineOf (line : Nat) (tokens : List ScriptToken) : Nat :=
  (tokens.head?.map ScriptToken.line).getD line

mutual

/-- Reads commands up to a token that ends a list, or with `isOneLine` up to the end of the line. -/
def readList : Nat → Bool → Nat → List ScriptToken → Except ScriptError (WithRest Script)
  | 0, _, line, tokens => .error (unexpected line none tokens)
  | n + 1, isOneLine, line, tokens =>
    let tokens := if isOneLine then tokens else skipLineEnds tokens
    let line := lineOf line tokens
    match tokens with
    | [] => .ok (.nothing, [])
    | t :: rest =>
      if t.kind = .lineEnd || t.endsList then .ok (.nothing, t :: rest)
      else do
        let (first, left) ← readAndOr n line tokens
        match left with
        | ⟨line, .next⟩ :: more =>
          let (second, left) ← readList n isOneLine line more
          return (.next first second, left)
        | ⟨line, .background⟩ :: more =>
          let (second, left) ← readList n isOneLine line more
          return (.next (.background first) second, left)
        | ⟨line, .lineEnd⟩ :: more =>
          if isOneLine then return (first, left)
          else
            let (second, left) ← readList n false line more
            return (.next first second, left)
        | left => return (first, left)

/-- Reads pipes that depend on each other. -/
def readAndOr : Nat → Nat → List ScriptToken → Except ScriptError (WithRest Script)
  | 0, line, tokens => .error (unexpected line none tokens)
  | n + 1, line, tokens => do
    let (first, left) ← readPipe n line tokens
    readAndOrFrom n line first left

def readAndOrFrom : Nat → Nat → Script → List ScriptToken → Except ScriptError (WithRest Script)
  | 0, line, _, tokens => .error (unexpected line none tokens)
  | n + 1, _, first, tokens =>
    match tokens with
    | ⟨line, .andThen⟩ :: rest => do
      let (second, left) ← readPipe n line (skipLineEnds rest)
      readAndOrFrom n line (.andThen first second) left
    | ⟨line, .orElse⟩ :: rest => do
      let (second, left) ← readPipe n line (skipLineEnds rest)
      readAndOrFrom n line (.orElse first second) left
    | tokens => .ok (first, tokens)

/-- Reads commands that are joined to a pipe, perhaps negated. -/
def readPipe : Nat → Nat → List ScriptToken → Except ScriptError (WithRest Script)
  | 0, line, tokens => .error (unexpected line none tokens)
  | n + 1, line, tokens =>
    if (tokens.head?.bind ScriptToken.reserved?) = some "!" then do
      let (body, left) ← readPipe n line tokens.tail
      return (.negated body, left)
    else do
      let (first, left) ← readCommand n (lineOf line tokens) tokens
      match left with
      | ⟨line, .pipe⟩ :: rest =>
        let (second, left) ← readPipe n line (skipLineEnds rest)
        return (.pipe first second, left)
      | left => return (first, left)

def readCommand : Nat → Nat → List ScriptToken → Except ScriptError (WithRest Script)
  | 0, line, tokens => .error (unexpected line none tokens)
  | n + 1, line, tokens => do
    let (body, left) ← readCompound n line tokens
    match body with
    | .simple _ _ _ => return (body, left)
    | body =>
      let (redirections, left) ← readRedirections line left
      if redirections.isEmpty then return (body, left)
      else return (.redirected line body redirections, left)

/-- Reads one command; only a simple one has its redirections with it. -/
def readCompound : Nat → Nat → List ScriptToken → Except ScriptError (WithRest Script)
  | 0, line, tokens => .error (unexpected line none tokens)
  | n + 1, line, tokens =>
    match tokens with
    | ⟨line, .opening⟩ :: rest => do
      let (body, left) ← readList n false line rest
      match left with
      | ⟨_, .closing⟩ :: left => return (.subshell body, left)
      | left => .error (unexpected line (some "\")\"") left)
    | tokens =>
      match tokens.head?.bind ScriptToken.reserved? with
      | some "\x7b" => do
        let (body, left) ← readList n false line tokens.tail
        return (body, ← expectWord line "\x7d" left)
      | some "if" => readChoice n line tokens.tail
      | some "while" => readLoop n line false tokens.tail
      | some "until" => readLoop n line true tokens.tail
      | some "for" => do
        let ((name, words), left) ← readLoopHead line tokens.tail
        let (body, left) ← readList n false line (← expectWord line "do" (skipLineEnds left))
        return (.each name words body, ← expectWord line "done" left)
      | some "case" => do
        let (subject, left) ← readSubject line tokens.tail
        readCases n line subject left
      | some _ => .error (unexpected line none tokens)
      | none =>
        match definition? tokens with
        | some (name, rest) => do
          let (body, left) ← readCommand n line (skipLineEnds rest)
          return (.define name body, left)
        | none => do
          let ((words, redirections), left) ← readSimple line tokens
          if words.isEmpty && redirections.isEmpty then .error (unexpected line none tokens)
          else
            match left with
            | ⟨_, .opening⟩ :: _ | ⟨_, .unclosed⟩ :: _ => .error (unexpected line none left)
            | left => return (.simple line words redirections, left)

/-- Reads a choice after its `if` or `elif`. -/
def readChoice : Nat → Nat → List ScriptToken → Except ScriptError (WithRest Script)
  | 0, line, tokens => .error (unexpected line none tokens)
  | n + 1, line, tokens => do
    let (condition, left) ← readList n false line tokens
    let (yes, left) ← readList n false line (← expectWord line "then" left)
    match left.head?.bind ScriptToken.reserved? with
    | some "elif" =>
      let (no, left) ← readChoice n line left.tail
      return (.choice condition yes no, left)
    | some "else" =>
      let (no, left) ← readList n false line left.tail
      return (.choice condition yes no, ← expectWord line "fi" left)
    | _ => return (.choice condition yes .nothing, ← expectWord line "fi" left)

def readCases : Nat → Nat → ScriptWord → List ScriptToken → Except ScriptError (WithRest Script)
  | 0, line, _, tokens => .error (unexpected line none tokens)
  | n + 1, line, subject, tokens =>
    let tokens := skipLineEnds tokens
    if (tokens.head?.bind ScriptToken.reserved?) = some "esac" then .ok (.nothing, tokens.tail)
    else do
      let tokens := if (tokens.head?.map (·.kind)) = some .opening then tokens.tail else tokens
      let (patterns, left) ← readPatterns line tokens
      let (body, left) ← readList n false line left
      match left with
      | ⟨line, .caseEnd⟩ :: rest =>
        let (otherwise, left) ← readCases n line subject rest
        return (.choose subject patterns body otherwise, left)
      | left => return (.choose subject patterns body .nothing, ← expectWord line "esac" left)

/-- Reads a loop after its `while` or `until`. -/
def readLoop : Nat → Nat → Bool → List ScriptToken → Except ScriptError (WithRest Script)
  | 0, line, _, tokens => .error (unexpected line none tokens)
  | n + 1, line, isUntil, tokens => do
    let (condition, left) ← readList n false line tokens
    let (body, left) ← readList n false line (← expectWord line "do" left)
    return (.loop isUntil condition body, ← expectWord line "done" left)

end

/-- Reads the lines of at most `n` tokens: the scripts of the lines up to the first that cannot be
read, and what is wrong with that one. -/
def readLines : Nat → Nat → List ScriptToken → List Script × Option ScriptError
  | 0, _, _ | _, _, [] => ([], none)
  | n + 1, line, tokens =>
    match readList (10 * tokens.length + 10) true line tokens with
    | .error e => ([], some e)
    | .ok (first, []) => ([first], none)
    | .ok (first, ⟨line, .lineEnd⟩ :: rest) =>
      let (scripts, error) := readLines n line rest
      (first :: scripts, error)
    | .ok (_, left) => ([], some (unexpected line none left))

/-- Reads a script: the scripts of its lines up to the first that cannot be read, and what is wrong
with that one. -/
def readScript (script : List Char) : List Script × Option ScriptError :=
  let tokens := tokensOf script
  readLines tokens.length 1 tokens

end Child

end BroadcastIntake
